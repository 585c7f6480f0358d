import TypeAtlas.Proofs.Dump.Field
import TypeAtlas.Proofs.Dump.FieldLine
import TypeAtlas.Proofs.Offset
import TypeAtlas.Proofs.Text.Written

namespace TypeAtlas.Dump

open Text

-- A field as dumps write it on a line: words, a type with arguments and array brackets, a name, and
-- the digits of an offset.
structure WrittenField where
  visibility : String
  modifiers : List String
  stem : List Char
  arguments : Option (List Char)
  ranks : List (List Char)
  name : List Char
  digits : List Char
  visible : visibility ∈ visibilityWords
  recognized : ∀ word ∈ modifiers, word ∈ FieldLine.modifierWords
  isStem : IsName FieldLine.isTypeChar stem
  plain : ∀ text ∈ arguments, ∀ c ∈ text, c ∉ ['\n', ';', '{', '}']
  areRanks : ∀ rank ∈ ranks, ∀ c ∈ rank, FieldLine.isRankChar c = true ∧ c ≠ '\n'
  isName : IsName isWord name
  numbered : digits ≠ []
  areHex : ∀ c ∈ digits, isHex c = true

namespace WrittenField

def argumentsText (field : WrittenField) : List Char :=
  match field.arguments with
  | some text => '<' :: text ++ ['>']
  | none => []

def ranksText (field : WrittenField) : List Char :=
  field.ranks.flatMap fun rank => '[' :: rank ++ [']']

def type (field : WrittenField) : List Char :=
  field.stem ++ field.argumentsText ++ field.ranksText

def modifiersText (field : WrittenField) : List Char :=
  field.modifiers.flatMap fun word => ' ' :: word.toList

-- The end of the line, from the semicolon on.
def offsetText (field : WrittenField) : List Char :=
  [';', ' ', '/', '/', ' ', '0', 'x'] ++ field.digits

def line (field : WrittenField) : List Char :=
  field.visibility.toList ++ field.modifiersText ++ ' ' :: field.type ++ ' ' :: field.name ++
    field.offsetText

def read (field : WrittenField) : FieldLine :=
  ⟨field.modifiers, field.type, field.name, field.digits⟩

end WrittenField

namespace FieldLine

theorem isBlank_of_isTypeChar {c : Char} (h : isTypeChar c = true) : isBlank c = false := by
  rw [isTypeChar, Bool.or_eq_true, beq_iff_eq] at h
  rcases h with h | rfl
  · exact isBlank_of_isWord h
  · rfl

theorem isBlank_of_isFieldNameChar {c : Char} (h : isFieldNameChar c = true) :
    isBlank c = false := by
  simp only [isFieldNameChar, Bool.or_eq_true, beq_iff_eq] at h
  rcases h with (h | rfl) | rfl
  · exact isBlank_of_isWord h
  · rfl
  · rfl

theorem blanks?_space {rest : List Char} (h : EndsRun isBlank rest) :
    blanks? (' ' :: rest) = some rest :=
  blanks?_written (List.cons_ne_nil ' ' []) (by decide) h

theorem offsetDigits?_written {digits : List Char} (hne : digits ≠ [])
    (hhex : ∀ c ∈ digits, isHex c = true) :
    offsetDigits? ([';', ' ', '/', '/', ' ', '0', 'x'] ++ digits) = some digits := by
  have hrun := run?_written hne hhex (.nil isHex)
  rw [List.append_nil] at hrun
  have hread : offsetDigits? ([';', ' ', '/', '/', ' ', '0', 'x'] ++ digits) =
      (run? isHex digits).map Prod.fst := rfl
  rw [hread, hrun, Option.map_some]

theorem fieldName?_written {name : List Char} (h : IsName isWord name) (more : List Char) :
    fieldName? (name ++ ';' :: more) = some (name, ';' :: more) := by
  obtain ⟨c, rest, rfl, hc, hrest⟩ := h
  have hchars : ∀ d ∈ rest, isFieldNameChar d = true := by
    intro d hd
    simp [isFieldNameChar, hrest d hd]
  have hends : EndsRun isFieldNameChar (';' :: more) := .cons (by decide) more
  rw [List.cons_append, fieldName?, if_pos (by simp [hc]), takeWhile_written hchars hends,
    dropWhile_written hchars hends]

theorem arrayRanks_written {ranks : List (List Char)}
    (h : ∀ rank ∈ ranks, ∀ c ∈ rank, isRankChar c = true) {rest : List Char}
    (hrest : rest.head? ≠ some '[') :
    arrayRanks ((ranks.flatMap fun rank => '[' :: rank ++ [']']) ++ rest) =
      (ranks.flatMap fun rank => '[' :: rank ++ [']'], rest) := by
  induction ranks with
  | nil =>
      apply arrayRanks_none
      cases rest with
      | nil => rfl
      | cons c rest =>
          apply arrayRank?_of_ne
          intro hc
          exact hrest (hc ▸ rfl)
  | cons rank others ih =>
      obtain ⟨hrank, hothers⟩ := List.forall_mem_cons.mp h
      have hread (more : List Char) : arrayRank? ('[' :: (rank ++ ']' :: more)) =
          some ('[' :: rank ++ [']'], more) := by
        have hends : EndsRun isRankChar (']' :: more) := .cons (by decide) more
        rw [arrayRank?_cons, dropWhile_written hrank hends, takeWhile_written hrank hends]
        rfl
      have htext : ((rank :: others).flatMap fun rank => '[' :: rank ++ [']']) ++ rest =
          '[' :: (rank ++ ']' :: ((others.flatMap fun rank => '[' :: rank ++ [']']) ++ rest)) := by
        simp
      rw [htext, arrayRanks_some (hread _), ih hothers]
      simp

-- Array brackets are made of brackets, commas and blanks.
theorem arrayRanks_spec (text : List Char) :
    text = (arrayRanks text).1 ++ (arrayRanks text).2 ∧
      ∀ c ∈ (arrayRanks text).1, c = '[' ∨ c = ']' ∨ isRankChar c = true := by
  fun_induction arrayRanks text with
  | case1 text rank rest hrank more ih =>
      obtain ⟨hrest, hchars⟩ := ih
      cases text with
      | nil => cases hrank
      | cons c inner =>
          by_cases hc : c = '['
          · subst hc
            rw [arrayRank?_cons] at hrank
            split at hrank
            · rename_i after hclosed
              cases hrank
              have hinner := List.takeWhile_append_dropWhile (p := isRankChar) (l := inner)
              rw [hclosed] at hinner
              have htext : '[' :: inner =
                  '[' :: inner.takeWhile isRankChar ++ [']'] ++ rest := by
                rw [List.append_assoc, List.cons_append, List.singleton_append, hinner]
              refine ⟨?_, ?_⟩
              · rw [List.append_assoc, ← hrest]
                exact htext
              · intro d hd
                rcases List.mem_append.mp hd with hd | hd
                · rcases List.mem_cons.mp hd with rfl | hd
                  · exact .inl rfl
                  · rcases List.mem_append.mp hd with hd | hd
                    · exact .inr (.inr (List.all_eq_true.mp List.all_takeWhile d hd))
                    · exact .inr (.inl (List.mem_singleton.mp hd))
                · exact hchars d hd
            · cases hrank
          · rw [arrayRank?_of_ne hc] at hrank
            cases hrank
  | case2 text hnone => exact ⟨rfl, List.forall_mem_nil _⟩

-- No name of a field holds a blank or a semicolon.
theorem fieldName?_spec {text name rest : List Char} (h : fieldName? text = some (name, rest)) :
    text = name ++ rest ∧ ∀ c ∈ name, isBlank c = false ∧ c ≠ ';' := by
  cases text with
  | nil => cases h
  | cons c tail =>
      rw [fieldName?] at h
      split at h
      · rename_i hc
        cases h
        refine ⟨?_, ?_⟩
        · rw [List.cons_append, List.takeWhile_append_dropWhile]
        · intro d hd
          rcases List.mem_cons.mp hd with rfl | hd
          · rw [Bool.or_eq_true, beq_iff_eq] at hc
            rcases hc with hstart | rfl
            · refine ⟨isBlank_of_isNameStart hstart, ?_⟩
              rintro rfl
              exact absurd hstart (by decide)
            · decide
          · have hchar := List.all_eq_true.mp List.all_takeWhile d hd
            refine ⟨isBlank_of_isFieldNameChar hchar, ?_⟩
            rintro rfl
            exact absurd hchar (by decide)
      · cases h

-- A line that is read behind its type's own name: array brackets, a gap, a name and perhaps blanks stand
-- before its first semicolon.
theorem afterArguments?_shape {modifiers : List String} {stem opened text : List Char}
    {found : FieldLine} (h : afterArguments? modifiers stem (opened, text) = some found) :
    ∃ ranks gap name blanks rest, text = ranks ++ gap ++ name ++ blanks ++ ';' :: rest ∧
      (∀ c ∈ ranks, c = '[' ∨ c = ']' ∨ isRankChar c = true) ∧
      (gap ≠ [] ∧ ∀ c ∈ gap, isBlank c = true) ∧
      (∀ c ∈ name, isBlank c = false ∧ c ≠ ';') ∧ ∀ c ∈ blanks, isBlank c = true := by
  unfold afterArguments? at h
  obtain ⟨behindGap, hgap, h⟩ := Option.bind_eq_some_iff.mp h
  obtain ⟨⟨name, behindName⟩, hname, h⟩ := Option.bind_eq_some_iff.mp h
  obtain ⟨digits, hdigits, -⟩ := Option.bind_eq_some_iff.mp h
  obtain ⟨rest, hend, -⟩ := Option.bind_eq_some_iff.mp hdigits
  obtain ⟨hranks, hrankChars⟩ := arrayRanks_spec text
  obtain ⟨gap, hbehindRanks, hgapNe, hgapChars⟩ := blanks?_spec hgap
  obtain ⟨hbehindGap, hnameChars⟩ := fieldName?_spec hname
  obtain ⟨blanks, hbehindName, hblankChars⟩ := trimStart_spec behindName
  rw [after?_eq_some_iff.mp hend] at hbehindName
  refine ⟨(arrayRanks text).1, gap, name, blanks, rest, ?_, hrankChars, ⟨hgapNe, hgapChars⟩,
    hnameChars, hblankChars⟩
  calc text = (arrayRanks text).1 ++ (arrayRanks text).2 := hranks
    _ = (arrayRanks text).1 ++ (gap ++ (name ++ (blanks ++ ([';'] ++ rest)))) := by
      rw [hbehindRanks, hbehindGap, hbehindName]
    _ = _ := by simp

-- Reading type arguments stops at the bracket behind which the rest of the line can be read, if behind
-- none before it the line can.
theorem findSome?_closings {α : Type} {read? : List Char × List Char → Option α}
    {seen inner tail : List Char} {found : α} (hinner : '\n' ∉ inner)
    (hearly : ∀ opened rest, rest ⊆ inner → read? (opened, rest ++ '>' :: tail) = none)
    (hclosed : read? (seen.reverse ++ inner ++ ['>'], tail) = some found) :
    (closings seen (inner ++ '>' :: tail)).findSome? read? = some found := by
  induction inner generalizing seen with
  | nil =>
      have hread : read? (('>' :: seen).reverse, tail) = some found := by
        rwa [List.append_nil, ← List.reverse_cons] at hclosed
      rw [List.nil_append, closings, if_neg (by decide), if_pos rfl, List.findSome?_cons, hread]
  | cons c inner ih =>
      obtain ⟨hc, hinner⟩ := List.ne_and_not_mem_of_not_mem_cons hinner
      have hsub : inner ⊆ c :: inner := List.subset_cons_self c inner
      have hclosed' : read? ((c :: seen).reverse ++ inner ++ ['>'], tail) = some found := by
        simpa using hclosed
      have hrest := ih hinner
        (fun opened rest hmem => hearly opened rest (List.Subset.trans hmem hsub)) hclosed'
      rw [List.cons_append, closings, if_neg (Ne.symm hc)]
      split
      · rw [List.findSome?_cons, hearly _ inner hsub]
        exact hrest
      · exact hrest

-- Behind a text that does not begin with a blank, neither a modifier nor a type can follow.
theorem findSome?_modifierRuns_of_endsRun {text : List Char} (h : EndsRun isBlank text) :
    (modifierRuns text).findSome? afterModifiers? = none := by
  have hblanks := blanks?_of_endsRun h
  have hmodifier : modifier? text = none := by rw [modifier?, hblanks, Option.bind_none]
  have hread : afterModifiers? ([], text) = none := by
    rw [afterModifiers?]
    simp only [hblanks, Option.bind_eq_bind, Option.bind_none]
  rw [modifierRuns_none hmodifier, List.findSome?_cons, hread, List.findSome?_nil]

def withModifier (word : String) (line : FieldLine) : FieldLine :=
  { line with modifiers := word :: line.modifiers }

theorem afterArguments?_cons (word : String) (modifiers : List String) (stem : List Char)
    (way : List Char × List Char) :
    afterArguments? (word :: modifiers) stem way =
      (afterArguments? modifiers stem way).map (withModifier word) := by
  simp only [afterArguments?]
  cases blanks? (arrayRanks way.2).2 with
  | none => rfl
  | some behindGap =>
      simp only [Option.bind_eq_bind, Option.bind_some]
      cases fieldName? behindGap with
      | none => rfl
      | some name =>
          simp only [Option.bind_some]
          cases offsetDigits? name.2 with
          | none => rfl
          | some digits => rfl

-- One modifier more changes nothing but the modifiers of the line.
theorem afterModifiers?_cons (word : String) (run : List String × List Char) :
    afterModifiers? (word :: run.1, run.2) = (afterModifiers? run).map (withModifier word) := by
  simp only [afterModifiers?]
  cases blanks? run.2 with
  | none => rfl
  | some behind =>
      simp only [Option.bind_eq_bind, Option.bind_some]
      cases name? isTypeChar behind with
      | none => rfl
      | some stem =>
          simp only [Option.bind_some, List.map_findSome?]
          congr 1
          funext way
          exact afterArguments?_cons word run.1 stem.1 way

theorem findSome?_runs_cons (word : String) (runs : List (List String × List Char)) :
    (runs.map fun run => (word :: run.1, run.2)).findSome? afterModifiers? =
      (runs.findSome? afterModifiers?).map (withModifier word) := by
  rw [List.findSome?_map, List.map_findSome?]
  congr 1
  funext run
  exact afterModifiers?_cons word run

-- A modifier that a text of other words begins with ends where the first of them does, or within it.
theorem eq_or_endsRun_of_word {word : String} {first behind rest : List Char}
    (hword : word ∈ modifierWords) (hfirst : ∀ c ∈ first, isBlank c = false)
    (hbehind : EndsRun isWord behind) (h : first ++ behind = word.toList ++ rest) :
    rest = behind ∨ EndsRun isBlank rest := by
  have hletters : ∀ word ∈ modifierWords, ∀ c ∈ word.toList, isWord c = true := by decide
  rcases List.append_eq_append_iff.mp h with ⟨more, hlong, hrest⟩ | ⟨more, hshort, hrest⟩
  · cases more with
    | nil => exact .inl hrest.symm
    | cons c more =>
        have hc : isWord c = true := by
          apply hletters word hword
          rw [hlong]
          exact List.mem_append_right first List.mem_cons_self
        rw [hrest] at hbehind
        cases (hbehind c rfl).symm.trans hc
  · cases more with
    | nil => exact .inl hrest
    | cons c more =>
        rw [hrest]
        exact .inr (.cons (hfirst c (by simp [hshort])) _)

-- Where nothing can be read behind the first word of a text, that word is no modifier of a line.
theorem findSome?_modifierRuns_word {first behind : List Char} (hstarts : StartsName first)
    (hfirst : ∀ c ∈ first, isBlank c = false) (hbehind : EndsRun isWord behind)
    (hnone : (modifierRuns behind).findSome? afterModifiers? = none) :
    (modifierRuns (' ' :: (first ++ behind))).findSome? afterModifiers? =
      afterModifiers? ([], ' ' :: (first ++ behind)) := by
  have hgap := blanks?_space (hstarts.append behind).endsBlank
  cases hmodifier : modifier? (' ' :: (first ++ behind)) with
  | none =>
      rw [modifierRuns_none hmodifier, List.findSome?_cons, List.findSome?_nil]
      cases afterModifiers? ([], ' ' :: (first ++ behind)) with
      | none => rfl
      | some line => rfl
  | some found =>
      obtain ⟨word, rest⟩ := found
      have hrest : (modifierRuns rest).findSome? afterModifiers? = none := by
        rw [modifier?, hgap, Option.bind_some] at hmodifier
        obtain ⟨hword, htext⟩ := word?_spec hmodifier
        rcases eq_or_endsRun_of_word hword hfirst hbehind htext with rfl | hends
        · exact hnone
        · exact findSome?_modifierRuns_of_endsRun hends
      rw [modifierRuns_some hmodifier, List.findSome?_append, findSome?_runs_cons, hrest,
        List.findSome?_cons, List.findSome?_nil]
      cases afterModifiers? ([], ' ' :: (first ++ behind)) with
      | none => rfl
      | some line => rfl

end FieldLine

namespace WrittenField

open FieldLine

variable (field : WrittenField)

-- What follows the arguments of the type.
def behindArguments : List Char :=
  field.ranksText ++ ' ' :: (field.name ++ field.offsetText)

-- What follows the type's own name.
def behindStem : List Char :=
  field.argumentsText ++ field.behindArguments

theorem afterArguments?_written (modifiers : List String) (stem opened : List Char) :
    afterArguments? modifiers stem (opened, field.behindArguments) =
      some ⟨modifiers, stem ++ opened ++ field.ranksText, field.name, field.digits⟩ := by
  have hranks : arrayRanks field.behindArguments =
      (field.ranksText, ' ' :: (field.name ++ field.offsetText)) :=
    arrayRanks_written (fun rank h c hc => (field.areRanks rank h c hc).1) (by simp)
  have hgap : blanks? (' ' :: (field.name ++ field.offsetText)) =
      some (field.name ++ field.offsetText) :=
    blanks?_space (field.isName.starts.append _).endsBlank
  have hname : fieldName? (field.name ++ field.offsetText) = some (field.name, field.offsetText) :=
    fieldName?_written field.isName _
  have hdigits : offsetDigits? field.offsetText = some field.digits :=
    offsetDigits?_written field.numbered field.areHex
  rw [afterArguments?]
  simp only [hranks, hgap, hname, hdigits, Option.bind_eq_bind, Option.bind_some]

theorem semicolon_not_mem_ranksText : ';' ∉ field.ranksText := by
  intro hc
  obtain ⟨rank, hrank, hc⟩ := List.mem_flatMap.mp hc
  rcases List.mem_append.mp hc with hc | hc
  · rcases List.mem_cons.mp hc with hc | hc
    · exact absurd hc (by decide)
    · exact absurd (field.areRanks rank hrank _ hc).1 (by decide)
  · exact absurd hc (by decide)

-- What no blank is.
def isSolid (c : Char) : Bool :=
  !isBlank c

theorem isSolid_name {c : Char} (h : c ∈ field.name) : isSolid c = true := by
  obtain ⟨first, rest, hname, hfirst, hrest⟩ := field.isName
  rw [hname] at h
  rcases List.mem_cons.mp h with rfl | h
  · simp [isSolid, isBlank_of_isNameStart hfirst]
  · simp [isSolid, isBlank_of_isWord (hrest c h)]

theorem endsRun_isSolid {gap : List Char} (hne : gap ≠ []) (hgap : ∀ c ∈ gap, isBlank c = true)
    (front : List Char) : EndsRun isSolid (front ++ gap).reverse := by
  obtain ⟨c, rest, hreverse⟩ := List.exists_cons_of_ne_nil (List.reverse_ne_nil_iff.mpr hne)
  have hc : c ∈ gap := List.mem_reverse.mp (hreverse ▸ List.mem_cons_self)
  rw [List.reverse_append, hreverse]
  exact .cons (by simp [isSolid, hgap c hc]) _

theorem semicolon_not_mem_line {inner : List Char} (h : ';' ∉ inner) :
    ';' ∉ inner ++ '>' :: field.ranksText ++ [' '] ++ field.name := by
  have hname : ';' ∉ field.name := field.isName.not_mem (by decide) (by decide)
  simp [h, field.semicolon_not_mem_ranksText, hname]

-- The line cannot be read behind an angle bracket before the last one of its type: that one would have
-- to stand among array brackets and blanks.
theorem afterArguments?_early (modifiers : List String) (stem opened : List Char)
    {inner : List Char} (hinner : ';' ∉ inner) :
    afterArguments? modifiers stem (opened, inner ++ '>' :: field.behindArguments) = none := by
  rw [Option.eq_none_iff_forall_ne_some]
  intro found hfound
  obtain ⟨ranks, gap, name, blanks, rest, htext, hranks, ⟨hgapNe, hgap⟩, hname, hblanks⟩ :=
    afterArguments?_shape hfound
  -- Both readings of the line agree up to its first semicolon.
  have hfront : inner ++ '>' :: field.ranksText ++ [' '] ++ field.name =
      ranks ++ gap ++ name ++ blanks := by
    have hread : ';' ∉ ranks ++ gap ++ name ++ blanks := by
      simp only [List.mem_append, not_or]
      refine ⟨⟨⟨fun h => ?_, fun h => ?_⟩, fun h => (hname _ h).2 rfl⟩, fun h => ?_⟩
      · exact absurd (hranks _ h) (by decide)
      · exact absurd (hgap _ h) (by decide)
      · exact absurd (hblanks _ h) (by decide)
    have hline : inner ++ '>' :: field.behindArguments =
        inner ++ '>' :: field.ranksText ++ [' '] ++ field.name ++ field.offsetText := by
      simp [behindArguments]
    exact eq_of_append_cons (hline.symm.trans htext) (field.semicolon_not_mem_line hinner) hread
  have hsolid : ∀ c ∈ field.name, isSolid c = true := fun c hc => field.isSolid_name hc
  have hspace : EndsRun isSolid (inner ++ '>' :: field.ranksText ++ [' ']).reverse :=
    endsRun_isSolid (by decide) (by decide) _
  by_cases hend : blanks = []
  · -- The names are the same, so the rest before them is.
    rw [hend, List.append_nil] at hfront
    have hbefore := eq_of_append_run hfront hsolid hspace
      (fun c hc => by simp [isSolid, (hname c hc).1]) (endsRun_isSolid hgapNe hgap ranks)
    have hbracket : '>' ∈ ranks ++ gap := by
      rw [← hbefore]
      simp
    rcases List.mem_append.mp hbracket with h | h
    · exact absurd (hranks _ h) (by decide)
    · exact absurd (hgap _ h) (by decide)
  · -- The line as written does not end in blanks before the semicolon.
    have hbefore := eq_of_append_run (hfront.trans (List.append_nil _).symm) hsolid hspace nofun
      (endsRun_isSolid hend hblanks _)
    rw [← hfront] at hbefore
    obtain ⟨c, tail, hcons, -⟩ := field.isName
    have hnil := List.self_eq_append_right.mp hbefore
    exact List.cons_ne_nil c tail (hcons.symm.trans hnil)

theorem behindArguments_cons :
    ∃ c rest, field.behindArguments = c :: rest ∧ (c = '[' ∨ c = ' ') := by
  rw [behindArguments, ranksText]
  cases field.ranks with
  | nil => exact ⟨' ', _, rfl, .inr rfl⟩
  | cons rank others => exact ⟨'[', _, rfl, .inl rfl⟩

theorem endsRun_behindStem : EndsRun isTypeChar field.behindStem := by
  rw [behindStem, argumentsText]
  split
  · exact .cons (by decide) _
  · obtain ⟨c, rest, hcons, hc⟩ := field.behindArguments_cons
    rw [List.nil_append, hcons]
    rcases hc with rfl | rfl
    · exact .cons (by decide) rest
    · exact .cons (by decide) rest

-- Of the ways to read the arguments, the first behind which the line can be read takes those written.
theorem findSome?_arguments (modifiers : List String) :
    (FieldLine.arguments field.behindStem).findSome? (afterArguments? modifiers field.stem) =
      some ⟨modifiers, field.type, field.name, field.digits⟩ := by
  rw [behindStem, type, argumentsText]
  split
  · rename_i inner hinner
    have hplain := field.plain inner hinner
    have hfound : (closings ['<'] (inner ++ '>' :: field.behindArguments)).findSome?
        (afterArguments? modifiers field.stem) = some ⟨modifiers,
          field.stem ++ ('<' :: inner ++ ['>']) ++ field.ranksText, field.name, field.digits⟩ := by
      apply findSome?_closings
      · exact fun h => hplain _ h (by decide)
      · intro opened rest hrest
        exact field.afterArguments?_early modifiers field.stem opened
          fun h => hplain _ (hrest h) (by decide)
      · exact field.afterArguments?_written modifiers field.stem ('<' :: inner ++ ['>'])
    have htext : '<' :: inner ++ ['>'] ++ field.behindArguments =
        '<' :: (inner ++ '>' :: field.behindArguments) := by simp
    rw [htext, FieldLine.arguments, List.findSome?_append, hfound, Option.some_or]
  · obtain ⟨c, rest, hcons, hc⟩ := field.behindArguments_cons
    have hopen : c ≠ '<' := by
      rintro rfl
      exact absurd hc (by decide)
    have hread := field.afterArguments?_written modifiers field.stem []
    rw [List.nil_append, hcons, arguments_of_ne hopen, ← hcons, List.findSome?_cons, hread]

-- The type is read as it was written, and with it the line behind its modifiers.
theorem afterModifiers?_written (modifiers : List String) :
    afterModifiers? (modifiers, ' ' :: (field.stem ++ field.behindStem)) =
      some ⟨modifiers, field.type, field.name, field.digits⟩ := by
  have hgap : blanks? (' ' :: (field.stem ++ field.behindStem)) =
      some (field.stem ++ field.behindStem) :=
    blanks?_space (field.isStem.starts.append _).endsBlank
  have hstem := name?_written field.isStem field.endsRun_behindStem
  rw [afterModifiers?]
  simp only [hgap, hstem, Option.bind_eq_bind, Option.bind_some, findSome?_arguments]

-- Without arguments and array brackets a name follows the type, and behind it a line cannot be read as
-- one whose type is that name.
theorem findSome?_modifierRuns_name :
    (modifierRuns (' ' :: (field.name ++ field.offsetText))).findSome? afterModifiers? = none := by
  have hsolid : ∀ c ∈ field.name, isBlank c = false := fun c hc => by
    simpa [isSolid] using field.isSolid_name hc
  have hend : EndsRun isTypeChar field.offsetText := .cons (by decide) _
  have hword : EndsRun isWord field.offsetText := .cons (by decide) _
  have hsemicolon : EndsRun isBlank field.offsetText := .cons (by decide) _
  have hgap : blanks? (' ' :: (field.name ++ field.offsetText)) =
      some (field.name ++ field.offsetText) :=
    blanks?_space (field.isName.starts.append _).endsBlank
  have hname : name? isTypeChar (field.name ++ field.offsetText) =
      some (field.name, field.offsetText) := by
    obtain ⟨c, rest, hcons, hc, hrest⟩ := field.isName
    have htype : ∀ d ∈ rest, isTypeChar d = true := fun d hd => by simp [isTypeChar, hrest d hd]
    exact name?_written ⟨c, rest, hcons, hc, htype⟩ hend
  have hranks : arrayRanks field.offsetText = ([], field.offsetText) :=
    arrayRanks_none (arrayRank?_of_ne (by decide) _)
  have hread : afterModifiers? ([], ' ' :: (field.name ++ field.offsetText)) = none := by
    have harguments : FieldLine.arguments field.offsetText = [([], field.offsetText)] :=
      arguments_of_ne (by decide) _
    simp only [afterModifiers?, hgap, hname, harguments, Option.bind_eq_bind, Option.bind_some,
      List.findSome?_cons, List.findSome?_nil, afterArguments?, hranks,
      blanks?_of_endsRun hsemicolon, Option.bind_none]
  rw [findSome?_modifierRuns_word field.isName.starts hsolid hword
    (findSome?_modifierRuns_of_endsRun hsemicolon), hread]

theorem findSome?_modifierRuns_behindStem :
    (modifierRuns field.behindStem).findSome? afterModifiers? = none := by
  rw [behindStem, argumentsText]
  split
  · exact findSome?_modifierRuns_of_endsRun (.cons (by decide) _)
  · rw [List.nil_append, behindArguments, ranksText]
    cases field.ranks with
    | nil => exact field.findSome?_modifierRuns_name
    | cons rank others => exact findSome?_modifierRuns_of_endsRun (.cons (by decide) _)

-- However much the type looks like a modifier, it is read as the type.
theorem findSome?_modifierRuns_type :
    (modifierRuns (' ' :: (field.stem ++ field.behindStem))).findSome? afterModifiers? =
      some ⟨[], field.type, field.name, field.digits⟩ := by
  have hsolid : ∀ c ∈ field.stem, isBlank c = false := by
    obtain ⟨first, rest, hstem, hfirst, hrest⟩ := field.isStem
    rw [hstem]
    exact List.forall_mem_cons.mpr
      ⟨isBlank_of_isNameStart hfirst, fun c hc => isBlank_of_isTypeChar (hrest c hc)⟩
  have hwords : EndsRun isWord field.behindStem := by
    intro c hc
    have htype := field.endsRun_behindStem c hc
    rw [isTypeChar, Bool.or_eq_false_iff] at htype
    exact htype.1
  rw [findSome?_modifierRuns_word field.isStem.starts hsolid hwords
    field.findSome?_modifierRuns_behindStem, field.afterModifiers?_written]

theorem modifierWords_start {word : String} (h : word ∈ modifierWords) : StartsName word.toList := by
  have hwords : ∀ word ∈ modifierWords, StartsName word.toList := by decide
  exact hwords word h

theorem findSome?_modifierRuns_written {modifiers : List String}
    (h : ∀ word ∈ modifiers, word ∈ modifierWords) :
    (modifierRuns ((modifiers.flatMap fun word => ' ' :: word.toList) ++
        ' ' :: (field.stem ++ field.behindStem))).findSome? afterModifiers? =
      some ⟨modifiers, field.type, field.name, field.digits⟩ := by
  have hfree : PrefixFree modifierWords := by
    unfold PrefixFree
    decide
  induction modifiers with
  | nil => exact field.findSome?_modifierRuns_type
  | cons word others ih =>
      obtain ⟨hword, hothers⟩ := List.forall_mem_cons.mp h
      have hread (rest : List Char) :
          modifier? (' ' :: (word.toList ++ rest)) = some (word, rest) := by
        rw [modifier?, blanks?_space ((modifierWords_start hword).append rest).endsBlank,
          Option.bind_some, word?_written hfree hword]
      rw [List.flatMap_cons, List.append_assoc, List.cons_append, modifierRuns_some (hread _),
        List.findSome?_append, findSome?_runs_cons, ih hothers, Option.map_some, Option.some_or]
      rfl

-- The line is read as the field it was written for.
theorem read?_line : read? field.line = some field.read := by
  have hfree : PrefixFree visibilityWords := by
    unfold PrefixFree
    decide
  have hwords : ∀ word ∈ visibilityWords, StartsName word.toList := by decide
  have hline : field.line = field.visibility.toList ++ (field.modifiersText ++
      ' ' :: (field.stem ++ field.behindStem)) := by
    simp [line, type, behindStem, behindArguments]
  have hstarts := (hwords _ field.visible).append (field.modifiersText ++
    ' ' :: (field.stem ++ field.behindStem))
  have htrim : trimStart field.line = field.line := by
    rw [hline]
    exact dropWhile_of_endsRun hstarts.endsBlank
  rw [FieldLine.read?, htrim, hline, afterAttributes_none hstarts.attribute?, visibility?,
    word?_written hfree field.visible]
  exact field.findSome?_modifierRuns_written field.recognized

end WrittenField

end TypeAtlas.Dump
