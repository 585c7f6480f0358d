import TypeAtlas.Proofs.Dump.Usable

namespace TypeAtlas.Dump

open Text

-- A header found, and what follows it, as a sighting.
def sightingOf (found : Header × List Char) : Sighting :=
  ⟨found.1, if found.1.isGeneric then none else body? found.2⟩

-- The headers of a text from its front to its end, each with what follows it. The next one is looked
-- for from where the one before it ends.
def headersFrom (text : List Char) : List (Header × List Char) :=
  match _h : Header.read? text with
  | some found =>
    match _h' : afterLine? found.2 with
    | some below => found :: headersFrom below
    | none => [found]
  | none =>
    match _h' : afterLine? text with
    | some below => headersFrom below
    | none => []
termination_by text.length
decreasing_by
  · exact Nat.lt_of_lt_of_le (afterLine?_length _h') (Header.read?_suffix _h).length_le
  · exact afterLine?_length _h'

-- A header ends on its line, so the search goes on with the next one.
theorem afterLine?_of_read? {text : List Char} {found : Header × List Char}
    (h : Header.read? text = some found) : afterLine? found.2 = afterLine? text := by
  rw [Header.read?_lineAlone] at h
  obtain ⟨⟨header, rest⟩, hread, rfl⟩ := Option.map_eq_some_iff.mp h
  have hrest : '\n' ∉ rest := fun hmem =>
    break_not_mem_lineAlone text ((Header.read?_suffix hread).subset hmem)
  conv_rhs => rw [← lineAlone_append_behindLine text]
  dsimp only
  rw [afterLine?_behind hrest, afterLine?_behind (break_not_mem_lineAlone text)]

theorem headersFrom_eq (text : List Char) :
    headersFrom text = (lineStarts text).filterMap Header.read? := by
  fun_induction headersFrom text with
  | case1 text found hread below hbelow ih =>
      rw [afterLine?_of_read? hread] at hbelow
      have hlines : lineStarts text = text :: lineStarts below :=
        congrArg (text :: ·) (laterLines_of_afterLine? hbelow)
      rw [hlines, List.filterMap_cons_some hread, ih]
  | case2 text found hread hbelow =>
      rw [afterLine?_of_read? hread] at hbelow
      rw [lineStarts, laterLines_eq_nil hbelow, List.filterMap_cons_some hread, List.filterMap_nil]
  | case3 text hread below hbelow ih =>
      have hlines : lineStarts text = text :: lineStarts below :=
        congrArg (text :: ·) (laterLines_of_afterLine? hbelow)
      rw [hlines, List.filterMap_cons_none hread, ih]
  | case4 text hread hbelow =>
      rw [lineStarts, laterLines_eq_nil hbelow, List.filterMap_cons_none hread, List.filterMap_nil]

-- The declarations listed so far, and under the key of each its place among them.
structure Register where
  declarations : List Declaration
  places : List ((Kind × String) × Nat)

namespace Register

def get? (register : Register) (kind : Kind) (name : String) : Option Declaration :=
  (register.places.lookup (kind, name)).bind fun i => register.declarations[i]?

def record (register : Register) (d : Declaration) : Register :=
  ⟨register.declarations ++ [d], (d.key, register.declarations.length) :: register.places⟩

-- What a header and what follows it add to the register.
def turn (register : Register) (found : Header × List Char) : Register :=
  if found.1.isGeneric then register
  else
    match body? found.2 with
    | none => register
    | some body =>
      if (register.places.lookup (found.1.kind, found.1.name)).isSome then register
      else register.record (found.1.declaration body)

def scan (text : List Char) : Register :=
  (headersFrom text).foldl turn ⟨[], []⟩

-- The places are those of the declarations with their keys, and no declaration lacks one.
structure InStep (register : Register) : Prop where
  placed : ∀ key i, register.places.lookup key = some i →
    ∃ d, register.declarations[i]? = some d ∧ d.key = key
  found : ∀ d ∈ register.declarations, (register.places.lookup d.key).isSome = true
  distinct : (register.declarations.map Declaration.key).Nodup

variable {register : Register}

theorem InStep.isSome_lookup_iff (h : register.InStep) (key : Kind × String) :
    (register.places.lookup key).isSome = true ↔ ∃ d ∈ register.declarations, d.key = key := by
  constructor
  · intro hsome
    obtain ⟨i, hi⟩ := Option.isSome_iff_exists.mp hsome
    obtain ⟨d, hd, hkey⟩ := h.placed key i hi
    exact ⟨d, List.mem_of_getElem? hd, hkey⟩
  · rintro ⟨d, hd, rfl⟩
    exact h.found d hd

theorem InStep.record (h : register.InStep) {d : Declaration}
    (hnew : register.places.lookup d.key = none) : (register.record d).InStep where
  placed key i hi := by
    simp only [Register.record, List.lookup_cons] at hi ⊢
    split at hi
    · rename_i hkey
      cases hi
      exact ⟨d, by simp, (beq_iff_eq.mp hkey).symm⟩
    · obtain ⟨e, he, hkey⟩ := h.placed key i hi
      have hi' := (List.getElem?_eq_some_iff.mp he).1
      exact ⟨e, (List.getElem?_append_left hi').trans he, hkey⟩
  found e he := by
    simp only [Register.record, List.lookup_cons] at he ⊢
    split
    · rfl
    · rename_i hkey
      rcases List.mem_append.mp he with he | he
      · exact h.found e he
      · cases List.mem_singleton.mp he
        simp at hkey
  distinct := by
    rw [Register.record, List.map_append, List.nodup_append]
    refine ⟨h.distinct, List.nodup_singleton _, ?_⟩
    intro key hkey other hother
    obtain ⟨e, he, rfl⟩ := List.mem_map.mp hkey
    cases List.mem_singleton.mp hother
    intro heq
    have hfound := h.found e he
    rw [heq, hnew] at hfound
    cases hfound

-- A turn lists what a header declares behind the declarations listed so far, and goes without it
-- where the header has no block to itself or its kind and name have a place already.
theorem InStep.turn_eq (h : register.InStep) {earlier : List Declaration}
    (hearlier : register.declarations = earlier.reverse) (found : Header × List Char) :
    register.turn found =
      match (sightingOf found).declaration? earlier with
      | some d => register.record d
      | none => register := by
  have hany (kind : Kind) (name : String) :
      (earlier.any fun d => d.kind == kind && d.name == name) =
        (register.places.lookup (kind, name)).isSome := by
    rw [Bool.eq_iff_iff, h.isSome_lookup_iff, hearlier, List.any_eq_true]
    simp [Declaration.key]
  unfold Register.turn Sighting.declaration? sightingOf
  by_cases hgeneric : found.1.isGeneric
  · simp [hgeneric]
  · cases hbody : body? found.2 with
    | none => simp [hgeneric]
    | some body =>
        simp only [hgeneric, Bool.false_eq_true, if_false, Option.bind_some, hany]
        split
        · rfl
        · rfl

-- What a loop over headers lists behind what is listed already, and that it leaves the register in step.
theorem InStep.foldl (h : register.InStep) {earlier : List Declaration}
    (hearlier : register.declarations = earlier.reverse) (founds : List (Header × List Char)) :
    (founds.foldl Register.turn register).InStep ∧
      (founds.foldl Register.turn register).declarations =
        register.declarations ++ listed earlier (founds.map sightingOf) := by
  induction founds generalizing register earlier with
  | nil => exact ⟨h, (List.append_nil _).symm⟩
  | cons found rest ih =>
      rw [List.foldl_cons, List.map_cons, listed_cons, h.turn_eq hearlier]
      cases hdeclares : (sightingOf found).declaration? earlier with
      | none => exact ih h hearlier
      | some d =>
          have hnew : register.places.lookup d.key = none := by
            rw [← Option.not_isSome_iff_eq_none, h.isSome_lookup_iff, hearlier]
            rintro ⟨e, he, hkey⟩
            exact key_of_declaration? hdeclares e (List.mem_reverse.mp he) hkey
          have hrecord : (register.record d).declarations = (d :: earlier).reverse := by
            rw [List.reverse_cons, ← hearlier]
            rfl
          obtain ⟨hinStep, hlisted⟩ := ih (h.record hnew) hrecord
          refine ⟨hinStep, hlisted.trans ?_⟩
          simp [Register.record]

-- Of a register in step, the place of a key finds the declaration that has the key.
theorem InStep.get?_eq_some_iff (h : register.InStep) {kind : Kind} {name : String} {d : Declaration} :
    register.get? kind name = some d ↔ d ∈ register.declarations ∧ d.kind = kind ∧ d.name = name := by
  rw [get?, Option.bind_eq_some_iff]
  constructor
  · rintro ⟨i, hi, hd⟩
    obtain ⟨e, he, hkey⟩ := h.placed _ i hi
    obtain rfl : e = d := Option.some.inj (he.symm.trans hd)
    exact ⟨List.mem_of_getElem? hd, Prod.mk.inj hkey⟩
  · rintro ⟨hd, rfl, rfl⟩
    obtain ⟨i, hi⟩ := Option.isSome_iff_exists.mp (h.found d hd)
    obtain ⟨e, he, hkey⟩ := h.placed _ i hi
    obtain rfl : e = d := List.inj_on_of_nodup_map h.distinct (List.mem_of_getElem? he) hd hkey
    exact ⟨i, hi, he⟩

theorem sightings_eq_map (text : List Char) : sightings text = (headersFrom text).map sightingOf := by
  rw [sightings_eq_filterMap, headersFrom_eq, List.map_filterMap]
  rfl

theorem scan_eq (text : List Char) :
    (scan text).InStep ∧ (scan text).declarations = (Index.scan text).declarations := by
  have hempty : InStep ⟨[], []⟩ := ⟨nofun, nofun, List.nodup_nil⟩
  have hlisted : (Index.scan text).declarations = listed [] (sightings text) := rfl
  rw [hlisted, sightings_eq_map]
  exact hempty.foldl List.reverse_nil.symm (headersFrom text)

-- A look-up goes by the place of its key, and finds what a search of the list does.
theorem get?_scan (text : List Char) (kind : Kind) (name : String) :
    (scan text).get? kind name = (Index.scan text).get? kind name := by
  obtain ⟨hinStep, hlisted⟩ := scan_eq text
  ext d
  rw [hinStep.get?_eq_some_iff, Index.get?_scan_iff, hlisted]

end Register

namespace Index

-- A look-up finds what the first line declares that declares anything under the kind and name.
theorem get?_scan_findSome? (text : List Char) (kind : Kind) (name : String) :
    (scan text).get? kind name =
      (lineStarts text).findSome? fun line => (usable? line).filter (Declaration.isNamed kind name) := by
  rw [get?_scan_eq, origin?]
  induction lineStarts text with
  | nil => rfl
  | cons line rest ih =>
      rw [List.findSome?_cons, List.find?_cons, usable?_eq]
      cases hdeclares : declares? line with
      | none => exact ih
      | some d =>
          rw [Option.any_some, Option.filter_some]
          cases d.isNamed kind name with
          | true => exact hdeclares
          | false => exact ih

-- The index lists the first usable declaration of each kind and name, and a loop over the headers of
-- the text that keeps a list and a table of places comes to the same.
theorem scan_firstUsable (text : List Char) :
    (scan text).declarations =
        ((lineStarts text).inits.zip (lineStarts text)).filterMap
          (fun place => firstUsable? place.1 place.2) ∧
      ((scan text).declarations.map Declaration.key).Nodup ∧
      (∀ kind name d, (scan text).get? kind name = some d ↔
        d ∈ (scan text).declarations ∧ d.kind = kind ∧ d.name = name) ∧
      (∀ kind name, (scan text).get? kind name = (lineStarts text).findSome? fun line =>
        (usable? line).filter (Declaration.isNamed kind name)) ∧
      (∀ d ∈ (scan text).declarations, ∃ above below,
        text = above ++ '{' :: (d.body ++ '}' :: below) ∧
          matchingBrace? text (byteSize above) = some (byteSize above + 1 + byteSize d.body)) ∧
      (Register.scan text).declarations = (scan text).declarations ∧
      ∀ kind name, (Register.scan text).get? kind name = (scan text).get? kind name :=
  ⟨declarations_scan_eq text, scan_distinct text, fun _ _ _ => get?_scan_iff,
    get?_scan_findSome? text, fun _ hd => exists_match_of_mem hd, (Register.scan_eq text).2,
    Register.get?_scan text⟩

end Index

end TypeAtlas.Dump
