import TypeAtlas.Proofs.Dump.WrittenField

namespace TypeAtlas.Dump

open Text

theorem lines_line_lineBreak {line : List Char} (h : '\n' ∉ line) (lineBreak : LineBreak)
    (rest : List Char) :
    ∃ first, lines (line ++ lineBreak.text ++ rest) = first :: lines rest ∧
      SameWeight first line := by
  cases lineBreak with
  | feed =>
      refine ⟨withoutReturn line, ?_, sameWeight_withoutReturn line⟩
      rw [LineBreak.text, List.append_assoc]
      exact lines_line h rest
  | returnFeed =>
      have hline : '\n' ∉ line ++ ['\r'] := List.not_mem_append h (by decide)
      have htext : line ++ LineBreak.returnFeed.text ++ rest = line ++ ['\r'] ++ '\n' :: rest := by
        simp [LineBreak.text]
      have hread : FieldLine.read? line = FieldLine.read? (line ++ ['\r']) :=
        FieldLine.read?_ended (.inr rfl)
      obtain ⟨hsame, hbalance⟩ := sameWeight_withoutReturn (line ++ ['\r'])
      refine ⟨withoutReturn (line ++ ['\r']), ?_, ?_⟩
      · rw [htext, lines_line hline]
      · exact ⟨hsame.trans hread.symm, hbalance.trans (balance_return line)⟩

namespace WrittenField

variable (field : WrittenField) {c : Char}

-- Characters that no line of a field holds: such a line is one line, and outside of all braces it
-- leads out of none.
def outside : List Char :=
  ['\n', '{', '}']

theorem not_mem_type (hc : c ∈ outside) : c ∉ field.type := by
  have hclasses : ∀ c ∈ outside, isNameStart c = false ∧ FieldLine.isTypeChar c = false ∧
      c ∉ ['<', '>', '[', ']'] ∧ ¬(FieldLine.isRankChar c = true ∧ c ≠ '\n') := by decide
  obtain ⟨hstart, hchar, hmarks, hrank⟩ := hclasses c hc
  simp only [List.mem_cons, List.not_mem_nil, or_false, not_or] at hmarks
  obtain ⟨hless, hgreater, hleft, hright⟩ := hmarks
  have hstem := field.isStem.not_mem hstart hchar
  have harguments : c ∉ field.argumentsText := by
    unfold argumentsText
    split
    · rename_i text htext
      have hplain : c ∉ text := by
        intro hmem
        apply field.plain text htext c hmem
        simp only [outside, List.mem_cons, List.not_mem_nil, or_false] at hc
        rcases hc with rfl | rfl | rfl <;> decide
      simp [hplain, hless, hgreater]
    · exact List.not_mem_nil
  have hranks : c ∉ field.ranksText := by
    intro hmem
    obtain ⟨rank, hrankMem, hmem⟩ := List.mem_flatMap.mp hmem
    have hinner : c ∉ rank := fun hinner => hrank (field.areRanks rank hrankMem c hinner)
    simp [hinner, hleft, hright] at hmem
  simp [type, hstem, harguments, hranks]

theorem not_mem_line (hc : c ∈ outside) : c ∉ field.line := by
  have hwords : ∀ c ∈ outside, (∀ word ∈ visibilityWords, c ∉ word.toList) ∧
      ∀ word ∈ FieldLine.modifierWords, c ∉ word.toList := by decide
  have hclasses : ∀ c ∈ outside, isNameStart c = false ∧ isWord c = false ∧ isHex c = false ∧
      c ∉ [';', ' ', '/', '/', ' ', '0', 'x'] ∧ c ≠ ' ' := by decide
  obtain ⟨hvisibilities, hmodifiers⟩ := hwords c hc
  obtain ⟨hstart, hword, hhex, hmark, hblank⟩ := hclasses c hc
  have hvisibility := hvisibilities field.visibility field.visible
  have hmodifiersText : c ∉ field.modifiersText := by
    intro hmem
    obtain ⟨modifier, hmodifier, hmem⟩ := List.mem_flatMap.mp hmem
    rcases List.mem_cons.mp hmem with hmem | hmem
    · exact hblank hmem
    · exact hmodifiers modifier (field.recognized modifier hmodifier) hmem
  have htype := field.not_mem_type hc
  have hname := field.isName.not_mem hstart hword
  have hoffset : c ∉ field.offsetText := by
    have hdigits : c ∉ field.digits := fun hmem => by
      cases hhex.symm.trans (field.areHex c hmem)
    exact List.not_mem_append hmark hdigits
  simp [line, hvisibility, hmodifiersText, htype, hname, hoffset, hblank]

theorem balance_line : balance field.line = 0 :=
  balance_of_not_mem (field.not_mem_line (by decide)) (field.not_mem_line (by decide))

-- The text of some fields, one on each line.
def textOf (lineBreak : LineBreak) (fields : List WrittenField) : List Char :=
  fields.flatMap fun field => field.line ++ lineBreak.text

theorem fieldLines_textOf (lineBreak : LineBreak) (fields : List WrittenField) :
    fieldLines (textOf lineBreak fields) = (fields.map read).filter FieldLine.isInstance := by
  rw [fieldLines]
  congr 1
  induction fields with
  | nil => rfl
  | cons field rest ih =>
      obtain ⟨first, hlines, hread, hbalance⟩ :=
        lines_line_lineBreak (field.not_mem_line (by decide)) lineBreak (textOf lineBreak rest)
      have htext : textOf lineBreak (field :: rest) =
          field.line ++ lineBreak.text ++ textOf lineBreak rest := List.flatMap_cons
      rw [htext, hlines, topLines, if_pos rfl, hbalance, field.balance_line, Int.add_zero,
        List.filterMap_cons, hread, field.read?_line, ih, List.map_cons]

-- What a field is in a schema before it is classified: its texts as they were written.
def raw (field : WrittenField) : RawField :=
  ⟨String.ofList field.name, String.ofList field.type, String.ofList ('0' :: 'x' :: field.digits)⟩

def AtZero (field : WrittenField) : Prop :=
  ∀ c ∈ field.digits, c = '0'

-- Whether a field is kept behind those that were kept before it.
def IsKept (rules : Rules) (kind : Kind) (before : List WrittenField) (field : WrittenField) : Prop :=
  "static" ∉ field.modifiers ∧ "const" ∉ field.modifiers ∧
    rules.isGeneratedField (String.ofList field.name) = false ∧
    (field.AtZero → kind = .structType ∧ before = [])

instance (field : WrittenField) : Decidable field.AtZero :=
  inferInstanceAs (Decidable (∀ c ∈ field.digits, c = '0'))

instance (rules : Rules) (kind : Kind) (before : List WrittenField) (field : WrittenField) :
    Decidable (field.IsKept rules kind before) :=
  inferInstanceAs (Decidable (_ ∧ _ ∧ _ ∧ _))

def keep (rules : Rules) (kind : Kind) (before : List WrittenField) (field : WrittenField) :
    List WrittenField :=
  if field.IsKept rules kind before then before ++ [field] else before

-- The fields that are kept, judged one after the other.
def kept (rules : Rules) (kind : Kind) (fields : List WrittenField) : List WrittenField :=
  fields.foldl (keep rules kind) []

theorem offsetValue?_raw_iff : field.raw.offsetValue? = some 0 ↔ field.AtZero :=
  Offset.parse?_eq_zero_iff field.numbered field.areHex

theorem isInstance_read_iff : field.read.isInstance = true ↔
    "static" ∉ field.modifiers ∧ "const" ∉ field.modifiers := by
  simp [read, FieldLine.isInstance]

-- Whether the next field may stand at offset zero.
def mayStart (kind : Kind) (before : List WrittenField) : Bool :=
  kind == .structType && before.isEmpty

theorem mayStart_iff {kind : Kind} {before : List WrittenField} :
    mayStart kind before = true ↔ kind = .structType ∧ before = [] := by
  simp [mayStart]

theorem mayStart_append (kind : Kind) (before : List WrittenField) (field : WrittenField) :
    mayStart kind (before ++ [field]) = false := by
  apply Bool.eq_false_iff.mpr
  intro hstart
  exact List.append_ne_nil_of_right_ne_nil before (List.cons_ne_nil field []) (mayStart_iff.mp hstart).2

theorem goes_iff {kind : Kind} {before : List WrittenField} :
    (field.raw.offsetValue? == some 0 && !mayStart kind before) = true ↔
      ¬(field.AtZero → kind = .structType ∧ before = []) := by
  rw [Bool.and_eq_true, beq_iff_eq, offsetValue?_raw_iff, Bool.not_eq_true', ← Bool.not_eq_true,
    mayStart_iff, Classical.not_imp]

-- One field of a body is judged as it is written, and then the rest behind what was kept.
theorem keptFields_read (rules : Rules) (kind : Kind) (before : List WrittenField)
    (rest : List FieldLine) :
    before.map raw ++ keptFields rules (mayStart kind before)
        ((field.read :: rest).filter FieldLine.isInstance) =
      (keep rules kind before field).map raw ++
        keptFields rules (mayStart kind (keep rules kind before field))
          (rest.filter FieldLine.isInstance) := by
  have hraw : field.read.field = field.raw := rfl
  by_cases hinstance : field.read.isInstance = true
  · rw [List.filter_cons_of_pos hinstance, keptFields_cons, hraw]
    rw [isInstance_read_iff] at hinstance
    by_cases hgenerated : rules.isGeneratedField field.raw.name = true
    · have hkeep : keep rules kind before field = before := if_neg fun h => by
        cases hgenerated.symm.trans h.2.2.1
      rw [if_pos hgenerated, hkeep]
    · rw [Bool.not_eq_true] at hgenerated
      rw [hgenerated, if_neg Bool.false_ne_true]
      by_cases hzero : field.AtZero → kind = .structType ∧ before = []
      · have hkeep : keep rules kind before field = before ++ [field] :=
          if_pos ⟨hinstance.1, hinstance.2, hgenerated, hzero⟩
        rw [if_neg fun hgoes => field.goes_iff.mp hgoes hzero, hkeep, mayStart_append]
        simp
      · have hkeep : keep rules kind before field = before := if_neg fun h => hzero h.2.2.2
        rw [if_pos (field.goes_iff.mpr hzero), hkeep]
  · have hkeep : keep rules kind before field = before :=
      if_neg fun h => hinstance (field.isInstance_read_iff.mpr ⟨h.1, h.2.1⟩)
    rw [List.filter_cons_of_neg hinstance, hkeep]

-- The fields of a body are those written in it that are kept, with the texts they were written with.
theorem fields_textOf (rules : Rules) (kind : Kind) (lineBreak : LineBreak)
    (written : List WrittenField) :
    fields rules kind (textOf lineBreak written) = (kept rules kind written).map raw := by
  have hfold (before : List WrittenField) :
      before.map raw ++ keptFields rules (mayStart kind before)
          ((written.map read).filter FieldLine.isInstance) =
        (written.foldl (keep rules kind) before).map raw := by
    induction written generalizing before with
    | nil => exact List.append_nil _
    | cons field rest ih => rw [List.map_cons, keptFields_read, ih, List.foldl_cons]
  have hstart : mayStart kind [] = (kind == .structType) := Bool.and_true _
  rw [fields_eq_keptFields, fieldLines_textOf, ← hstart]
  exact hfold []

end WrittenField

def dropsField : WrittenField where
  visibility := "private"
  modifiers := ["readonly", "new"]
  stem := "Table".toList
  arguments := some "int, List<Drop> ".toList
  ranks := [",".toList]
  name := "drops".toList
  digits := "018".toList
  visible := by decide
  recognized := by decide
  isStem := by decide
  plain := by decide
  areRanks := by decide
  isName := by decide
  numbered := by decide
  areHex := by decide

example : dropsField.line =
    "private readonly new Table<int, List<Drop> >[,] drops; // 0x018".toList := by decide

end TypeAtlas.Dump
