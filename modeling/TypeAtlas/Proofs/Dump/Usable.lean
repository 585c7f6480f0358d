import Mathlib.Data.List.Infix
import Mathlib.Data.List.TakeWhile
import TypeAtlas.Proofs.Dump.Header
import TypeAtlas.Proofs.Dump.Matching
import TypeAtlas.Proofs.Dump.Origin

namespace TypeAtlas.Dump

open Text

-- The line a text begins with, and what is left of the text with the line break on.
def lineAlone (text : List Char) : List Char :=
  text.takeWhile (· != '\n')

def behindLine (text : List Char) : List Char :=
  text.dropWhile (· != '\n')

-- What the line a text begins with declares, if the line alone begins with a header that has no type
-- parameters, and if a block is found behind the header.
def usable? (text : List Char) : Option Declaration :=
  (Header.read? (lineAlone text)).bind fun found =>
    if found.1.isGeneric then none
    else (body? (found.2 ++ behindLine text)).map found.1.declaration

-- What a line declares unless one of some lines does so under the same kind and name.
def firstUsable? (earlier : List (List Char)) (text : List Char) : Option Declaration :=
  (usable? text).filter fun d => ∀ line ∈ earlier, ∀ e ∈ usable? line, e.key ≠ d.key

theorem break_not_mem_lineAlone (text : List Char) : '\n' ∉ lineAlone text := by
  intro hmem
  have hbreak := List.mem_takeWhile_imp hmem
  simp at hbreak

theorem behindLine_cases (text : List Char) :
    behindLine text = [] ∨ ∃ below, behindLine text = '\n' :: below := by
  induction text with
  | nil => exact .inl rfl
  | cons c text ih =>
      by_cases hc : c = '\n'
      · subst hc
        exact .inr ⟨text, rfl⟩
      · have hgoes : behindLine (c :: text) = behindLine text :=
          List.dropWhile_cons_of_pos (bne_iff_ne.mpr hc)
        rwa [hgoes]

section

variable {line : List Char} (hline : '\n' ∉ line) (more : List Char)
include hline

theorem goesOn_of_mem : ∀ c ∈ line, (c != '\n') = true :=
  fun _ hc => bne_iff_ne.mpr fun heq => hline (heq ▸ hc)

theorem lineAlone_line : lineAlone (line ++ '\n' :: more) = line := by
  rw [lineAlone, List.takeWhile_append_of_pos (goesOn_of_mem hline)]
  exact List.append_nil line

theorem behindLine_line : behindLine (line ++ '\n' :: more) = '\n' :: more := by
  rw [behindLine, List.dropWhile_append_of_pos (goesOn_of_mem hline)]
  rfl

end

theorem lineAlone_append_behindLine (text : List Char) : lineAlone text ++ behindLine text = text :=
  List.takeWhile_append_dropWhile

-- A header is read from its line alone, and the rest of the text stays behind it.
theorem Header.read?_lineAlone (text : List Char) :
    Header.read? text =
      (Header.read? (lineAlone text)).map fun found => (found.1, found.2 ++ behindLine text) := by
  conv_lhs => rw [← lineAlone_append_behindLine text]
  rcases behindLine_cases text with hbehind | ⟨below, hbehind⟩
  · simp [hbehind]
  · rw [hbehind, Header.read?_break]

theorem usable?_eq (text : List Char) : usable? text = declares? text := by
  rw [declares?, sighting?, Header.read?_lineAlone, Option.map_map, Option.bind_map, usable?]
  congr 1
  funext found
  simp only [Function.comp_apply, Sighting.declaration?, List.any_nil, Bool.false_eq_true, if_false]
  split
  · rfl
  · cases body? (found.2 ++ behindLine text) with
    | none => rfl
    | some body => rfl

-- That some declarations have the kinds and names of what some lines declare.
def SameKeys (earlier : List Declaration) (lines : List (List Char)) : Prop :=
  ∀ key, (∃ d ∈ earlier, d.key = key) ↔ ∃ line ∈ lines, ∃ d ∈ usable? line, d.key = key

theorem Declaration.isNamed_iff {d : Declaration} {kind : Kind} {name : String} :
    d.isNamed kind name = true ↔ d.key = (kind, name) := by
  simp [isNamed, key]

theorem firstUsable?_eq {earlier : List Declaration} {seen : List (List Char)}
    (hkeys : SameKeys earlier seen) {line : List Char} {sighting : Sighting}
    (hsighting : sighting? line = some sighting) :
    firstUsable? seen line = sighting.declaration? earlier := by
  have husable : usable? line = sighting.declaration? [] := by
    rw [usable?_eq, declares?, hsighting]
    rfl
  rw [firstUsable?, husable, Sighting.declaration?_eq_filter earlier]
  congr 1
  funext d
  have hany : earlier.any (Declaration.isNamed d.kind d.name) = true ↔ ∃ e ∈ earlier, e.key = d.key := by
    simp only [List.any_eq_true, Declaration.isNamed_iff]
    rfl
  rw [Bool.eq_iff_iff, decide_eq_true_eq, Bool.not_eq_true', ← Bool.not_eq_true, hany, hkeys]
  simp

section

variable {earlier : List Declaration} {seen : List (List Char)} (hkeys : SameKeys earlier seen)
  {line : List Char}
include hkeys

theorem SameKeys.skip (h : ∀ d ∈ usable? line, ∃ e ∈ earlier, e.key = d.key) :
    SameKeys earlier (seen ++ [line]) := by
  intro key
  simp only [List.mem_append, List.mem_singleton, or_and_right, exists_or, exists_eq_left]
  rw [← hkeys key]
  constructor
  · exact .inl
  · rintro (hseen | ⟨d, hd, rfl⟩)
    · exact hseen
    · exact h d hd

theorem SameKeys.list {d : Declaration} (h : usable? line = some d) :
    SameKeys (d :: earlier) (seen ++ [line]) := by
  intro key
  simp only [List.mem_append, List.mem_singleton, or_and_right, exists_or, exists_eq_left]
  rw [← hkeys key, h, List.exists_mem_cons_iff, or_comm]
  simp

theorem SameKeys.of_not_first (h : firstUsable? seen line = none) :
    SameKeys earlier (seen ++ [line]) := by
  apply hkeys.skip
  intro d hd
  rw [firstUsable?, hd, Option.filter_some] at h
  rw [hkeys]
  by_contra hnew
  push Not at hnew
  rw [if_pos (decide_eq_true hnew)] at h
  cases h

end

-- Of some lines that stand below others, those are listed that declare something first.
theorem listed_lines {earlier : List Declaration} {seen : List (List Char)}
    (hkeys : SameKeys earlier seen) (lines : List (List Char)) :
    listed earlier (lines.filterMap sighting?) =
      (lines.inits.zip lines).filterMap fun place => firstUsable? (seen ++ place.1) place.2 := by
  induction lines generalizing earlier seen with
  | nil => rfl
  | cons line rest ih =>
      have hrest : ((rest.inits.map (line :: ·)).zip rest).filterMap
          (fun place => firstUsable? (seen ++ place.1) place.2) =
            (rest.inits.zip rest).filterMap fun place =>
              firstUsable? (seen ++ [line] ++ place.1) place.2 := by
        rw [List.zip_map_left, List.filterMap_map]
        congr 1
        funext place
        simp
      rw [List.inits_cons, List.zip_cons_cons, List.filterMap_cons, List.filterMap_cons, hrest]
      dsimp only
      rw [List.append_nil]
      cases hsighting : sighting? line with
      | none =>
          have hnone : usable? line = none := by
            rw [usable?_eq, declares?, hsighting]
            rfl
          rw [firstUsable?, hnone, Option.filter_none]
          refine ih (hkeys.skip ?_)
          intro d hd
          rw [hnone] at hd
          cases hd
      | some sighting =>
          dsimp only
          rw [listed_cons, ← firstUsable?_eq hkeys hsighting]
          cases hfirst : firstUsable? seen line with
          | none => exact ih (hkeys.of_not_first hfirst)
          | some d =>
              have husable := (Option.filter_eq_some_iff.mp hfirst).1
              exact congrArg (d :: ·) (ih (hkeys.list husable))

theorem declarations_scan_eq (text : List Char) :
    (Index.scan text).declarations =
      ((lineStarts text).inits.zip (lineStarts text)).filterMap fun place =>
        firstUsable? place.1 place.2 := by
  have hlisted : (Index.scan text).declarations = listed [] (sightings text) := rfl
  have hnone : SameKeys [] [] := by simp [SameKeys]
  rw [hlisted, sightings_eq_filterMap]
  exact listed_lines hnone (lineStarts text)

-- The body of what a line declares stands in the text from the line on, between its braces.
theorem exists_block_of_declares? {line : List Char} {d : Declaration} (h : declares? line = some d) :
    ∃ above below, line = above ++ '{' :: (d.body ++ '}' :: below) ∧
      enclosed? (d.body ++ '}' :: below) = some (d.body, below) := by
  rw [declares?_eq] at h
  obtain ⟨⟨header, inner⟩, hopened, h⟩ := Option.bind_eq_some_iff.mp h
  obtain ⟨⟨body, below⟩, hblock, rfl⟩ := Option.map_eq_some_iff.mp h
  obtain ⟨⟨header', rest⟩, hread, hopened⟩ := Option.bind_eq_some_iff.mp hopened
  split at hopened
  · cases hopened
  obtain ⟨inner', hopening, heq⟩ := Option.map_eq_some_iff.mp hopened
  cases heq
  have hinner : inner = body ++ '}' :: below := eq_of_enclosedFrom hblock
  subst hinner
  obtain ⟨above, rfl⟩ := (brace_of_opening? hopening).trans (Header.read?_suffix hread)
  exact ⟨above, below, rfl, hblock⟩

-- The body of a declaration stands strictly between an opening brace of the text and its match.
theorem exists_match_of_mem {text : List Char} {d : Declaration}
    (h : d ∈ (Index.scan text).declarations) :
    ∃ above below, text = above ++ '{' :: (d.body ++ '}' :: below) ∧
      matchingBrace? text (byteSize above) = some (byteSize above + 1 + byteSize d.body) := by
  rw [declarations_scan_eq] at h
  obtain ⟨place, hplace, hfirst⟩ := List.mem_filterMap.mp h
  have husable := (Option.filter_eq_some_iff.mp hfirst).1
  rw [usable?_eq] at husable
  obtain ⟨above, below, hline, hblock⟩ := exists_block_of_declares? husable
  obtain ⟨front, htext⟩ := suffix_of_mem_lineStarts (List.of_mem_zip hplace).2
  have hsplit : text = front ++ above ++ '{' :: (d.body ++ '}' :: below) := by
    rw [← htext, hline, List.append_assoc]
  refine ⟨front ++ above, below, hsplit, ?_⟩
  exact matchingBrace?_eq_some_iff.mpr ⟨front ++ above, d.body, below, hsplit, rfl, rfl, hblock⟩

end TypeAtlas.Dump
