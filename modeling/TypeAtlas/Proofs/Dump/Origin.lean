import TypeAtlas.Proofs.Dump.Index
import TypeAtlas.Proofs.Dump.Opening

namespace TypeAtlas.Dump

open Text

theorem sightings_eq_filterMap (text : List Char) :
    sightings text = (lineStarts text).filterMap sighting? := by
  rw [sightings_eq, lineStarts, List.filterMap_cons]
  cases sighting? text with
  | none => rfl
  | some sighting => rfl

-- The block behind a header: its body, and what follows the closing brace.
def block? (text : List Char) : Option (List Char × List Char) :=
  (opening? false false text).bind enclosed?

theorem body?_eq (text : List Char) : body? text = (block? text).map Prod.fst := by
  rw [body?, bodyFrom?_eq, block?, Option.map_bind]
  rfl

def Header.declaration (header : Header) (body : List Char) : Declaration :=
  ⟨header.kind, header.name, header.isAbstract, header.base, body⟩

-- What the header at the start of a text declares, other declarations apart.
def declares? (text : List Char) : Option Declaration :=
  (sighting? text).bind (Sighting.declaration? [])

-- The header a line begins with, and what follows the brace that opens its block.
def opened? (text : List Char) : Option (Header × List Char) :=
  (Header.read? text).bind fun found =>
    if found.1.isGeneric then none
    else (opening? false false found.2).map fun inner => (found.1, inner)

theorem declares?_eq (text : List Char) :
    declares? text = (opened? text).bind fun found =>
      (enclosed? found.2).map fun block => found.1.declaration block.1 := by
  rw [declares?, sighting?, Option.bind_map, opened?, Option.bind_assoc]
  congr 1
  funext found
  obtain ⟨header, rest⟩ := found
  simp only [Function.comp_apply, Sighting.declaration?, List.any_nil, Bool.false_eq_true, if_false]
  split
  · rfl
  · rw [body?_eq, Option.bind_map, block?]
    cases opening? false false rest with
    | none => rfl
    | some inner =>
        simp only [Option.map_some, Option.bind_some]
        cases enclosed? inner with
        | none => rfl
        | some block => rfl

def Declaration.isNamed (kind : Kind) (name : String) (d : Declaration) : Bool :=
  d.kind == kind && d.name == name

theorem Sighting.declaration?_eq_filter (earlier : List Declaration) (sighting : Sighting) :
    sighting.declaration? earlier =
      (sighting.declaration? []).filter fun d => !earlier.any (Declaration.isNamed d.kind d.name) := by
  obtain ⟨header, body⟩ := sighting
  simp only [declaration?, List.any_nil, Bool.false_eq_true, if_false]
  by_cases hgeneric : header.isGeneric
  · simp [hgeneric]
  · cases body with
    | none => simp [hgeneric]
    | some body =>
        have hany : (earlier.any fun d => d.kind == header.kind && d.name == header.name) =
            earlier.any (Declaration.isNamed header.kind header.name) := rfl
        simp only [hgeneric, Bool.false_eq_true, if_false, Option.bind_some, Option.filter_some, hany]
        cases earlier.any (Declaration.isNamed header.kind header.name) with
        | true => rfl
        | false => rfl

-- What earlier declarations keep from being listed has a name of theirs, so a look-up of another name
-- does not miss it.
theorem find?_listed {kind : Kind} {name : String} {earlier : List Declaration}
    (hearlier : ∀ d ∈ earlier, d.isNamed kind name = false) (sightings : List Sighting) :
    (listed earlier sightings).find? (Declaration.isNamed kind name) =
      (sightings.filterMap (Sighting.declaration? [])).find? (Declaration.isNamed kind name) := by
  induction sightings generalizing earlier with
  | nil => rfl
  | cons sighting rest ih =>
      rw [listed_cons, List.filterMap_cons, Sighting.declaration?_eq_filter]
      cases sighting.declaration? [] with
      | none => exact ih hearlier
      | some d =>
          by_cases hseen : earlier.any (Declaration.isNamed d.kind d.name)
          · have hother : d.isNamed kind name = false := by
              obtain ⟨e, he, hnamed⟩ := List.any_eq_true.mp hseen
              have hne := hearlier e he
              simp only [Declaration.isNamed, Bool.and_eq_true, beq_iff_eq] at hnamed hne ⊢
              rwa [hnamed.1, hnamed.2] at hne
            simp only [Option.filter_some, hseen, Bool.not_true, Bool.false_eq_true, if_false,
              List.find?_cons, hother]
            exact ih hearlier
          · simp only [Option.filter_some, hseen, Bool.not_false, if_true, List.find?_cons]
            cases hnamed : d.isNamed kind name with
            | true => rfl
            | false => exact ih (List.forall_mem_cons.mpr ⟨hnamed, hearlier⟩)

namespace Index

-- The line whose declaration the index lists under a name: the first that declares it.
def origin? (text : List Char) (kind : Kind) (name : String) : Option (List Char) :=
  (lineStarts text).find? fun line => (declares? line).any (Declaration.isNamed kind name)

theorem get?_scan_eq (text : List Char) (kind : Kind) (name : String) :
    (scan text).get? kind name = (origin? text kind name).bind declares? := by
  have hlisted : (scan text).declarations = listed [] (sightings text) := rfl
  have hnone : ∀ d ∈ ([] : List Declaration), d.isNamed kind name = false := nofun
  have hfind := find?_listed hnone (sightings text)
  rw [sightings_eq_filterMap, List.filterMap_filterMap] at hfind
  rw [get?, hlisted, origin?, sightings_eq_filterMap]
  exact hfind.trans List.find?_filterMap

end Index

end TypeAtlas.Dump
