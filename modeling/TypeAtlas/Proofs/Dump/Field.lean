import TypeAtlas.Dump.Field
import TypeAtlas.Proofs.Text.Read

namespace TypeAtlas.Dump

open Text

namespace FieldLine

theorem offsetDigits?_spec {text digits : List Char} (h : offsetDigits? text = some digits) :
    digits ≠ [] ∧ ∀ c ∈ digits, isHex c = true := by
  unfold offsetDigits? at h
  obtain ⟨_, -, h⟩ := Option.bind_eq_some_iff.mp h
  obtain ⟨_, -, h⟩ := Option.bind_eq_some_iff.mp h
  obtain ⟨_, -, h⟩ := Option.bind_eq_some_iff.mp h
  obtain ⟨⟨run, rest⟩, hrun, rfl⟩ := Option.map_eq_some_iff.mp h
  obtain ⟨hne, hall, -⟩ := run?_spec hrun
  exact ⟨hne, hall⟩

theorem afterArguments?_spec {modifiers : List String} {stem : List Char}
    {way : List Char × List Char} {found : FieldLine}
    (h : afterArguments? modifiers stem way = some found) :
    found.digits ≠ [] ∧ ∀ c ∈ found.digits, isHex c = true := by
  unfold afterArguments? at h
  obtain ⟨_, -, h⟩ := Option.bind_eq_some_iff.mp h
  obtain ⟨_, -, h⟩ := Option.bind_eq_some_iff.mp h
  obtain ⟨digits, hdigits, h⟩ := Option.bind_eq_some_iff.mp h
  cases h
  exact offsetDigits?_spec hdigits

-- Whichever way a line is read, its offset has digits.
theorem read?_spec {line : List Char} {found : FieldLine} (h : read? line = some found) :
    found.digits ≠ [] ∧ ∀ c ∈ found.digits, isHex c = true := by
  unfold read? at h
  obtain ⟨_, -, h⟩ := Option.bind_eq_some_iff.mp h
  obtain ⟨run, -, h⟩ := List.exists_of_findSome?_eq_some h
  unfold afterModifiers? at h
  obtain ⟨_, -, h⟩ := Option.bind_eq_some_iff.mp h
  obtain ⟨_, -, h⟩ := Option.bind_eq_some_iff.mp h
  obtain ⟨way, -, h⟩ := List.exists_of_findSome?_eq_some h
  exact afterArguments?_spec h

end FieldLine

-- An offset as a dump writes it.
def OffsetText (offset : String) : Prop :=
  ∃ digits, offset.toList = '0' :: 'x' :: digits ∧ digits ≠ [] ∧ ∀ c ∈ digits, isHex c = true

-- The fields that are kept of the lines of a body.
def keptFields (rules : Rules) (mayStart : Bool) (found : List FieldLine) : List RawField :=
  (judgeFields rules mayStart found).filterMap FieldFinding.field?

theorem keptFields_cons (rules : Rules) (mayStart : Bool) (line : FieldLine)
    (rest : List FieldLine) :
    keptFields rules mayStart (line :: rest) =
      if rules.isGeneratedField line.field.name then keptFields rules mayStart rest
      else if line.field.offsetValue? == some 0 && !mayStart then keptFields rules mayStart rest
      else line.field :: keptFields rules false rest := by
  rw [keptFields, judgeFields]
  split
  · rfl
  · split
    · rfl
    · rfl

theorem mem_keptFields {rules : Rules} {mayStart : Bool} {found : List FieldLine}
    {field : RawField} (h : field ∈ keptFields rules mayStart found) :
    rules.isGeneratedField field.name = false ∧ ∃ line ∈ found, line.field = field := by
  induction found generalizing mayStart with
  | nil => cases h
  | cons line rest ih =>
      have hrest {start : Bool} (hmem : field ∈ keptFields rules start rest) :
          rules.isGeneratedField field.name = false ∧ ∃ other ∈ line :: rest, other.field = field := by
        obtain ⟨hname, other, hother, hfield⟩ := ih hmem
        exact ⟨hname, other, List.mem_cons_of_mem _ hother, hfield⟩
      rw [keptFields_cons] at h
      split at h
      · exact hrest h
      · rename_i hname
        split at h
        · exact hrest h
        · rcases List.mem_cons.mp h with rfl | h
          · exact ⟨Bool.not_eq_true _ ▸ hname, line, List.mem_cons_self, rfl⟩
          · exact hrest h

-- Only the first field may stand at offset zero, and it only where that is allowed.
theorem start_of_keptFields {rules : Rules} {mayStart : Bool} {found : List FieldLine} {i : Nat}
    {field : RawField} (h : (keptFields rules mayStart found)[i]? = some field)
    (hzero : field.offsetValue? = some 0) : mayStart = true ∧ i = 0 := by
  induction found generalizing mayStart i with
  | nil => cases h
  | cons line rest ih =>
      rw [keptFields_cons] at h
      split at h
      · exact ih h
      · split at h
        · exact ih h
        · rename_i hstays
          cases i with
          | zero =>
              cases h
              rw [hzero] at hstays
              exact ⟨by simpa using hstays, rfl⟩
          | succ i => exact absurd (ih h).1 Bool.false_ne_true

variable {rules : Rules} {kind : Kind} {body : List Char} {field : RawField}

theorem fields_eq_keptFields (rules : Rules) (kind : Kind) (body : List Char) :
    fields rules kind body = keptFields rules (kind == .structType) (fieldLines body) := rfl

theorem not_generated_of_mem_fields (h : field ∈ fields rules kind body) :
    rules.isGeneratedField field.name = false :=
  (mem_keptFields h).1

theorem offsetText_of_mem_fields (h : field ∈ fields rules kind body) :
    OffsetText field.offset := by
  obtain ⟨-, line, hline, rfl⟩ := mem_keptFields h
  obtain ⟨text, -, hread⟩ := List.mem_filterMap.mp (List.mem_filter.mp hline).1
  obtain ⟨hne, hall⟩ := FieldLine.read?_spec hread
  exact ⟨line.digits, String.toList_ofList, hne, hall⟩

theorem offset_ne_zero_of_mem_fields (hkind : kind ≠ .structType)
    (h : field ∈ fields rules kind body) : field.offsetValue? ≠ some 0 := by
  intro hzero
  obtain ⟨i, hi, rfl⟩ := List.getElem_of_mem h
  have hstart := (start_of_keptFields (List.getElem?_eq_getElem hi) hzero).1
  exact hkind (beq_iff_eq.mp hstart)

theorem first_of_offset_zero {i : Nat} (h : (fields rules kind body)[i]? = some field)
    (hzero : field.offsetValue? = some 0) : i = 0 :=
  (start_of_keptFields h hzero).2

end TypeAtlas.Dump
