import Mathlib.Data.List.Nodup
import TypeAtlas.Dump.Index
import TypeAtlas.Proofs.NameMap

namespace TypeAtlas.Dump

-- What tells declarations apart.
def Declaration.key (declaration : Declaration) : Kind × String :=
  (declaration.kind, declaration.name)

-- The declaration that a sighting brings after those that `earlier` came from, if it brings one.
def Sighting.declaration? (earlier : List Declaration) (sighting : Sighting) : Option Declaration :=
  if sighting.header.isGeneric then none
  else
    sighting.body.bind fun body =>
      if earlier.any fun d => d.kind == sighting.header.kind && d.name == sighting.header.name then none
      else
        some ⟨sighting.header.kind, sighting.header.name, sighting.header.isAbstract,
          sighting.header.base, body⟩

def listed (earlier : List Declaration) (sightings : List Sighting) : List Declaration :=
  (judge earlier sightings).filterMap Finding.declaration?

theorem listed_cons (earlier : List Declaration) (sighting : Sighting) (rest : List Sighting) :
    listed earlier (sighting :: rest) =
      match sighting.declaration? earlier with
      | some d => d :: listed (d :: earlier) rest
      | none => listed earlier rest := by
  obtain ⟨header, body⟩ := sighting
  by_cases hgeneric : header.isGeneric
  · simp [listed, judge, Sighting.declaration?, hgeneric, Finding.declaration?,
      List.filterMap_cons]
  cases body with
  | none =>
      simp [listed, judge, Sighting.declaration?, hgeneric, Finding.declaration?,
        List.filterMap_cons]
  | some body =>
      by_cases hseen : earlier.any fun d => d.kind == header.kind && d.name == header.name
      · simp [listed, judge, Sighting.declaration?, hgeneric, hseen, Finding.declaration?,
          List.filterMap_cons]
      · simp [listed, judge, Sighting.declaration?, hgeneric, hseen, Finding.declaration?]

theorem key_of_declaration? {earlier : List Declaration} {sighting : Sighting} {d : Declaration}
    (h : sighting.declaration? earlier = some d) : ∀ e ∈ earlier, e.key ≠ d.key := by
  unfold Sighting.declaration? at h
  split at h
  · cases h
  obtain ⟨body, -, hbody⟩ := Option.bind_eq_some_iff.mp h
  split at hbody
  · cases hbody
  rename_i hnew
  cases hbody
  intro e he hkey
  obtain ⟨hkind, hname⟩ := Prod.mk.inj hkey
  exact hnew (List.any_eq_true.mpr ⟨e, he, by simp [hkind, hname]⟩)

-- Whatever is listed differs from the declarations before it, those that `earlier` came from
-- included.
theorem listed_keys (earlier : List Declaration) (sightings : List Sighting) :
    ((listed earlier sightings).map Declaration.key).Nodup ∧
      ∀ d ∈ listed earlier sightings, ∀ e ∈ earlier, e.key ≠ d.key := by
  induction sightings generalizing earlier with
  | nil => simp [listed, judge]
  | cons sighting rest ih =>
      rw [listed_cons]
      cases hfound : sighting.declaration? earlier with
      | none => exact ih earlier
      | some d =>
          obtain ⟨hnodup, hnew⟩ := ih (d :: earlier)
          constructor
          · refine List.nodup_cons.mpr ⟨?_, hnodup⟩
            intro hmem
            obtain ⟨e, he, hkey⟩ := List.mem_map.mp hmem
            exact hnew e he d List.mem_cons_self hkey.symm
          · intro e he
            rcases List.mem_cons.mp he with rfl | he
            · exact key_of_declaration? hfound
            · exact fun f hf => hnew e he f (List.mem_cons_of_mem _ hf)

namespace Index

def Distinct (index : Index) : Prop :=
  (index.declarations.map Declaration.key).Nodup

theorem scan_distinct (text : List Char) : (scan text).Distinct :=
  (listed_keys [] (sightings text)).1

variable {index : Index} {kind : Kind} {name : String} {d : Declaration}

theorem get?_spec (h : index.get? kind name = some d) :
    d ∈ index.declarations ∧ d.kind = kind ∧ d.name = name := by
  have hkey := List.find?_some h
  simp only [Bool.and_eq_true, beq_iff_eq] at hkey
  exact ⟨List.mem_of_find?_eq_some h, hkey⟩

-- No two declarations share kind and name, so a look-up finds the one there is.
theorem get?_eq_some_iff (hdistinct : index.Distinct) :
    index.get? kind name = some d ↔ d ∈ index.declarations ∧ d.kind = kind ∧ d.name = name := by
  refine ⟨get?_spec, ?_⟩
  rintro ⟨hmem, rfl, rfl⟩
  have hsome : (index.get? d.kind d.name).isSome :=
    List.find?_isSome.mpr ⟨d, hmem, by simp⟩
  obtain ⟨e, he⟩ := Option.isSome_iff_exists.mp hsome
  obtain ⟨hemem, hkind, hname⟩ := get?_spec he
  have heq : e = d := List.inj_on_of_nodup_map hdistinct hemem hmem (Prod.ext hkind hname)
  rw [he, heq]

theorem get?_scan_iff {text : List Char} :
    (scan text).get? kind name = some d ↔
      d ∈ (scan text).declarations ∧ d.kind = kind ∧ d.name = name :=
  get?_eq_some_iff (scan_distinct text)

theorem mem_ofKind_iff : d ∈ index.ofKind kind ↔ d ∈ index.declarations ∧ d.kind = kind := by
  simp only [ofKind, List.mem_filter, beq_iff_eq]

theorem find?_ofKind (index : Index) (kind : Kind) (name : String) :
    ((index.ofKind kind).find? fun d => d.name == name) = index.get? kind name := by
  simp only [ofKind, get?, List.find?_filter, Bool.decide_and, Bool.decide_eq_true]

-- Of one kind, names alone tell declarations apart.
theorem names_ofKind_nodup (hdistinct : index.Distinct) (kind : Kind) :
    ((index.ofKind kind).map Declaration.name).Nodup := by
  have hkeys : ((index.ofKind kind).map Declaration.key).Nodup :=
    hdistinct.sublist (List.filter_sublist.map _)
  refine List.Nodup.of_map (fun name => (kind, name)) ?_
  rw [List.map_map]
  refine (List.map_congr_left ?_).symm ▸ hkeys
  intro d hd
  exact Prod.ext (mem_ofKind_iff.mp hd).2.symm rfl

-- A map made of the declarations of one kind, by their names.
theorem get?_ofList_ofKind {α : Type} {index : Index} (hdistinct : index.Distinct) (kind : Kind)
    (f : Declaration → Option α) {name : String} {value : α} :
    (NameMap.ofList ((index.ofKind kind).filterMap fun d =>
        (f d).map fun value => (d.name, value))).get? name = some value ↔
      ∃ d, index.get? kind name = some d ∧ f d = some value := by
  rw [NameMap.get?_ofList_filterMap (names_ofKind_nodup hdistinct kind)]
  simp only [mem_ofKind_iff, get?_eq_some_iff hdistinct, and_assoc]

end Index

end TypeAtlas.Dump
