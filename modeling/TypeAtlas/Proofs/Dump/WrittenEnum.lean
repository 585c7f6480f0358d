import Mathlib.Algebra.Group.Int.Defs
import TypeAtlas.Proofs.Dump.EnumBody
import TypeAtlas.Proofs.Dump.WrittenField
import TypeAtlas.Proofs.Text.Digits

namespace TypeAtlas.Dump

open Text

-- The integers that a constant of a schema can have.
def FitsInt64 (n : Int) : Prop :=
  -2 ^ 63 ≤ n ∧ n < 2 ^ 63

instance (n : Int) : Decidable (FitsInt64 n) :=
  inferInstanceAs (Decidable (_ ∧ _))

theorem isDecimal_of_isDigit {c : Char} (h : c.isDigit = true) : isDecimal c = true := by
  have hascii : c.toNat < 0x80 := by
    simp only [Char.isDigit, Bool.and_eq_true, decide_eq_true_eq, UInt32.le_iff_toNat_le] at h
    exact Nat.lt_of_le_of_lt h.2 (by decide)
  rw [isDecimal, if_pos hascii, h]

-- An integer in decimal digits. Any number of zeros may stand before those of its magnitude.
structure WrittenInteger where
  negative : Bool
  zeros : Nat
  magnitude : Nat

namespace WrittenInteger

def digits (integer : WrittenInteger) : List Char :=
  List.replicate integer.zeros '0' ++ Nat.toDigits 10 integer.magnitude

def text (integer : WrittenInteger) : List Char :=
  if integer.negative then '-' :: integer.digits else integer.digits

def value (integer : WrittenInteger) : Int :=
  if integer.negative then -integer.magnitude else integer.magnitude

def value? (integer : WrittenInteger) : Option Int64 :=
  if FitsInt64 integer.value then some (Int64.ofInt integer.value) else none

variable (integer : WrittenInteger)

theorem digits_ne_nil : integer.digits ≠ [] :=
  List.append_ne_nil_of_right_ne_nil _ Nat.toDigits_ne_nil

theorem isDecimal_of_mem_digits {c : Char} (h : c ∈ integer.digits) : isDecimal c = true := by
  rcases List.mem_append.mp h with h | h
  · rw [List.eq_of_mem_replicate h]
    rfl
  · exact isDecimal_of_isDigit (Nat.isDigit_of_mem_toDigits (by decide) (by decide) h)

theorem int64?_digits : int64? integer.negative integer.digits = integer.value? := by
  have hmin : Int64.minValue.toInt = -2 ^ 63 := by decide
  have hmax : Int64.maxValue.toInt = 2 ^ 63 - 1 := by decide
  have hfits : (decide (Int64.minValue.toInt ≤ integer.value) &&
      decide (integer.value ≤ Int64.maxValue.toInt)) = true ↔ FitsInt64 integer.value := by
    rw [hmin, hmax, FitsInt64, Bool.and_eq_true, decide_eq_true_iff, decide_eq_true_iff,
      Int.le_sub_one_iff]
  rw [int64?, digits, decimalNumber?, number?_padded (by decide) rfl decimalValue?_digitChar]
  exact if_congr hfits rfl rfl

-- The sign, if there is one, is told from the digits.
theorem sign_text (rest : List Char) :
    ((integer.text ++ rest).head? == some '-') = integer.negative ∧
      (if integer.negative then (integer.text ++ rest).drop 1 else integer.text ++ rest) =
        integer.digits ++ rest := by
  cases hsign : integer.negative with
  | true => simp [text, hsign]
  | false =>
      obtain ⟨c, tail, hdigits⟩ := List.exists_cons_of_ne_nil integer.digits_ne_nil
      have hdigit : isDecimal c = true := integer.isDecimal_of_mem_digits (by rw [hdigits]; simp)
      have hc : c ≠ '-' := by
        rintro rfl
        exact absurd hdigit (by decide)
      simp [text, hsign, hdigits, hc]

theorem break_not_mem_text : '\n' ∉ integer.text := by
  have hdigits : '\n' ∉ integer.digits := by
    intro hc
    exact absurd (integer.isDecimal_of_mem_digits hc) (by decide)
  rw [text]
  split
  · exact List.not_mem_cons_of_ne_of_not_mem (by decide) hdigits
  · exact hdigits

theorem endsBlank_text (rest : List Char) : EndsRun isBlank (integer.text ++ rest) := by
  obtain ⟨c, tail, hdigits⟩ := List.exists_cons_of_ne_nil integer.digits_ne_nil
  have hc : isDecimal c = true := integer.isDecimal_of_mem_digits (by rw [hdigits]; simp)
  rw [text]
  split
  · exact .cons (by decide) _
  · rw [hdigits]
    exact .cons (isBlank_eq_false (by decide +kernel) hc) _

end WrittenInteger

-- A type as an enum's body names it: letters, digits, underscores and dots.
def IsTypeText (type : List Char) : Prop :=
  type ≠ [] ∧ ∀ c ∈ type, FieldLine.isTypeChar c = true

instance (type : List Char) : Decidable (IsTypeText type) :=
  inferInstanceAs (Decidable (type ≠ [] ∧ ∀ c ∈ type, FieldLine.isTypeChar c = true))

namespace IsTypeText

variable {type : List Char}

theorem endsBlank (h : IsTypeText type) (rest : List Char) : EndsRun isBlank (type ++ rest) := by
  obtain ⟨c, tail, rfl⟩ := List.exists_cons_of_ne_nil h.1
  exact .cons (FieldLine.isBlank_of_isTypeChar (h.2 c List.mem_cons_self)) _

theorem run?_written (h : IsTypeText type) (rest : List Char) :
    run? FieldLine.isTypeChar (type ++ ' ' :: rest) = some (type, ' ' :: rest) :=
  Text.run?_written h.1 h.2 (.cons (by decide) rest)

theorem break_not_mem (h : IsTypeText type) : '\n' ∉ type := by
  intro hc
  exact absurd (h.2 _ hc) (by decide)

end IsTypeText

-- A word is read at the front of a type only if the type begins with it.
theorem after?_type {word type rest found : List Char} (hword : ∀ c ∈ word, isBlank c = false)
    (h : after? word (type ++ ' ' :: rest) = some found) :
    ∃ tail, type = word ++ tail ∧ found = tail ++ ' ' :: rest := by
  have htext := after?_eq_some_iff.mp h
  rcases List.append_eq_append_iff.mp htext with ⟨between, hbetween, hrest⟩ | ⟨tail, htype, hrest⟩
  · cases between with
    | nil => exact ⟨[], by simp [hbetween], hrest.symm⟩
    | cons c between =>
        obtain ⟨rfl, -⟩ := List.cons.inj hrest
        exact absurd (hword ' ' (by rw [hbetween]; simp)) (by decide)
  · exact ⟨tail, htype, hrest⟩

theorem visibility?_public (rest : List Char) : visibility? ("public".toList ++ rest) = some rest := by
  have hfree : PrefixFree visibilityWords := by
    unfold PrefixFree
    decide
  rw [visibility?, word?_written hfree (by decide), Option.map_some]

theorem afterVisibility_public {rest : List Char} (h : EndsRun isBlank rest) :
    afterVisibility ("public".toList ++ ' ' :: rest) = rest := by
  rw [afterVisibility, visibility?_public, Option.bind_some, FieldLine.blanks?_space h,
    Option.getD_some]

theorem trimStart_blank {c : Char} (h : isBlank c = true) (text : List Char) :
    trimStart (c :: text) = trimStart text :=
  List.dropWhile_cons_of_pos h

theorem trimStart_of_endsRun {text : List Char} (h : EndsRun isBlank text) : trimStart text = text :=
  dropWhile_of_endsRun h

theorem trimStart_space {text : List Char} (h : EndsRun isBlank text) :
    trimStart (' ' :: text) = text :=
  trimStart_of_endsRun h

-- A constant of an enum. Blanks may stand before it, line breaks among them.
structure WrittenConstant where
  gap : List Char
  type : List Char
  name : List Char
  integer : WrittenInteger
  blank : ∀ c ∈ gap, isBlank c = true
  typed : IsTypeText type
  isName : IsName isWord name

namespace WrittenConstant

def line (constant : WrittenConstant) : List Char :=
  "public".toList ++ ' ' :: "const".toList ++ ' ' :: constant.type ++ ' ' :: constant.name ++
    [' ', '=', ' '] ++ constant.integer.text ++ [';']

def member (constant : WrittenConstant) : EnumMember :=
  ⟨String.ofList constant.name, constant.integer.value?⟩

variable (constant : WrittenConstant)

theorem line_append (rest : List Char) :
    constant.line ++ rest = "public".toList ++ ' ' :: ("const".toList ++ ' ' :: (constant.type ++
      ' ' :: (constant.name ++ ' ' :: '=' :: ' ' :: (constant.integer.text ++ ';' :: rest)))) := by
  unfold line
  simp only [List.append_assoc, List.cons_append, List.nil_append, -String.reduceToList]

-- The line is read as the constant it was written for, up to its semicolon.
theorem read?_line (rest : List Char) :
    EnumMember.read? (constant.line ++ rest) = some (constant.member, rest) := by
  have hword (more : List Char) : EndsRun isBlank ("const".toList ++ more) := .cons (by decide) _
  have hconst (more : List Char) : after? "const".toList ("const".toList ++ more) = some more :=
    after?_eq_some_iff.mpr rfl
  have hname : name? isWord (constant.name ++ ' ' :: '=' :: ' ' ::
      (constant.integer.text ++ ';' :: rest)) = some (constant.name, ' ' :: '=' :: ' ' ::
        (constant.integer.text ++ ';' :: rest)) :=
    name?_written constant.isName (.cons (by decide) _)
  have hequals (more : List Char) : after? ['='] (trimStart (' ' :: '=' :: more)) = some more := by
    rw [trimStart_space (.cons (by decide) more)]
    rfl
  have hend : after? [';'] (trimStart (';' :: rest)) = some rest := by
    rw [trimStart_of_endsRun (.cons (by decide) rest)]
    rfl
  obtain ⟨hsign, hbehind⟩ := constant.integer.sign_text (';' :: rest)
  have hdigits : run? isDecimal (constant.integer.digits ++ ';' :: rest) =
      some (constant.integer.digits, ';' :: rest) :=
    run?_written constant.integer.digits_ne_nil
      (fun _ => constant.integer.isDecimal_of_mem_digits) (.cons (by decide) rest)
  have hvisibility (more : List Char) : EndsRun isBlank ("public".toList ++ more) :=
    .cons (by decide) _
  rw [EnumMember.read?, line_append, trimStart_of_endsRun (hvisibility _),
    afterVisibility_public (hword _), hconst]
  simp only [Option.bind_eq_bind, Option.bind_some,
    FieldLine.blanks?_space (constant.typed.endsBlank _), constant.typed.run?_written,
    FieldLine.blanks?_space (constant.isName.starts.append _).endsBlank, hname, hequals,
    trimStart_space (constant.integer.endsBlank_text _), hsign, hbehind, hdigits, hend,
    constant.integer.int64?_digits, member]

-- It is not read as the field that holds the value, even where that field's name stands for a type.
theorem storageField?_line (rest : List Char) : storageField? (constant.line ++ rest) = none := by
  have hvisibility (more : List Char) : EndsRun isBlank ("public".toList ++ more) :=
    .cons (by decide) _
  have hconst : IsTypeText "const".toList := by decide
  rw [storageField?, line_append, trimStart_of_endsRun (hvisibility _), visibility?_public]
  simp only [Option.bind_eq_bind, Option.bind_some, FieldLine.blanks?_space (hconst.endsBlank _),
    hconst.run?_written, FieldLine.blanks?_space (constant.typed.endsBlank _),
    -String.reduceToList]
  rw [Option.bind_eq_none_iff]
  intro found hfound
  obtain ⟨tail, htype, rfl⟩ := after?_type (by decide) hfound
  have hend : after? [';'] (trimStart (tail ++ ' ' :: (constant.name ++ ' ' :: '=' :: ' ' ::
      (constant.integer.text ++ ';' :: rest)))) = none := by
    cases tail with
    | nil =>
        have hstarts := constant.isName.starts.append (' ' :: '=' :: ' ' ::
          (constant.integer.text ++ ';' :: rest))
        obtain ⟨c, hc, hstart⟩ := hstarts
        obtain ⟨more, hmore⟩ := List.head?_eq_some_iff.mp hc
        rw [List.nil_append, hmore, trimStart_space (.cons (isBlank_of_isNameStart hstart) more)]
        refine if_neg ?_
        rintro rfl
        exact absurd hstart (by decide)
    | cons c tail =>
        have hc := constant.typed.2 c (by rw [htype]; simp)
        rw [List.cons_append, trimStart_of_endsRun (.cons (FieldLine.isBlank_of_isTypeChar hc) _)]
        refine if_neg ?_
        rintro rfl
        exact absurd hc (by decide)
  rw [hend]
  rfl

theorem break_not_mem_line : '\n' ∉ constant.line := by
  have htype := constant.typed.break_not_mem
  have hname := constant.isName.not_mem (c := '\n') (by decide) (by decide)
  have hinteger := constant.integer.break_not_mem_text
  have hwords : '\n' ∉ "public".toList ∧ '\n' ∉ "const".toList := by decide
  unfold line
  simp [htype, hname, hinteger, hwords, -String.reduceToList]

def text (lineBreak : LineBreak) : List Char :=
  constant.gap ++ (constant.line ++ lineBreak.text)

end WrittenConstant

-- The field that holds an enum's value. Blanks may stand before it.
structure WrittenStorage where
  gap : List Char
  type : List Char
  blank : ∀ c ∈ gap, isBlank c = true
  typed : IsTypeText type

namespace WrittenStorage

def line (storage : WrittenStorage) : List Char :=
  "public".toList ++ ' ' :: storage.type ++ ' ' :: "value__".toList ++ "; // 0x0".toList

variable (storage : WrittenStorage)

theorem line_append (rest : List Char) :
    storage.line ++ rest = "public".toList ++ ' ' :: (storage.type ++ ' ' ::
      ("value__".toList ++ ("; // 0x0".toList ++ rest))) := by
  unfold line
  simp only [List.append_assoc, List.cons_append, -String.reduceToList]

theorem storageField?_line (rest : List Char) :
    storageField? (storage.line ++ rest) = some (String.ofList storage.type) := by
  have hvisibility (more : List Char) : EndsRun isBlank ("public".toList ++ more) :=
    .cons (by decide) _
  have hvalue (more : List Char) : EndsRun isBlank ("value__".toList ++ more) :=
    .cons (by decide) _
  have hname (more : List Char) : after? "value__".toList ("value__".toList ++ more) = some more :=
    after?_eq_some_iff.mpr rfl
  have hend : after? [';'] (trimStart ("; // 0x0".toList ++ rest)) = some (" // 0x0".toList ++ rest) :=
    rfl
  rw [storageField?, line_append, trimStart_of_endsRun (hvisibility _), visibility?_public]
  simp only [Option.bind_eq_bind, Option.bind_some, FieldLine.blanks?_space (storage.typed.endsBlank _),
    storage.typed.run?_written, FieldLine.blanks?_space (hvalue _), hname, hend,
    -String.reduceToList]

-- It is not read as a constant, even where the word for one stands for its type.
theorem read?_line (rest : List Char) : EnumMember.read? (storage.line ++ rest) = none := by
  have hvisibility (more : List Char) : EndsRun isBlank ("public".toList ++ more) :=
    .cons (by decide) _
  rw [EnumMember.read?, line_append, trimStart_of_endsRun (hvisibility _),
    afterVisibility_public (storage.typed.endsBlank _)]
  simp only [Option.bind_eq_bind, -String.reduceToList]
  rw [Option.bind_eq_none_iff]
  intro found hfound
  obtain ⟨tail, htype, rfl⟩ := after?_type (by decide) hfound
  cases tail with
  | nil => rfl
  | cons c tail =>
      have hc := storage.typed.2 c (by rw [htype]; simp)
      rw [List.cons_append, blanks?_of_endsRun (.cons (FieldLine.isBlank_of_isTypeChar hc) _)]
      rfl

theorem break_not_mem_line : '\n' ∉ storage.line := by
  have htype := storage.typed.break_not_mem
  have hwords : '\n' ∉ "public".toList ∧ '\n' ∉ "value__".toList ∧ '\n' ∉ "; // 0x0".toList := by
    decide
  unfold line
  simp [htype, hwords, -String.reduceToList]

def text (lineBreak : LineBreak) : List Char :=
  storage.gap ++ (storage.line ++ lineBreak.text)

end WrittenStorage

-- Blanks in front of a body do not matter, line breaks among them.
theorem enumMembers_gap {gap : List Char} (h : ∀ c ∈ gap, isBlank c = true) (text : List Char) :
    enumMembers (gap ++ text) = enumMembers text := by
  induction gap with
  | nil => rfl
  | cons c gap ih =>
      obtain ⟨hc, hgap⟩ := List.forall_mem_cons.mp h
      have hread : EnumMember.read? (c :: (gap ++ text)) = EnumMember.read? (gap ++ text) := by
        rw [EnumMember.read?, EnumMember.read?, trimStart_blank hc]
      rw [List.cons_append, ← ih hgap, enumMembers_eq, enumMembers_eq (gap ++ text), hread]
      cases hfound : EnumMember.read? (gap ++ text) with
      | some found => rfl
      | none =>
          dsimp only
          rw [membersBehind, afterLine?]
          split
          · rw [Option.map_some, Option.getD_some, enumMembers_eq, hfound]
          · rfl

theorem storage?_gap {gap : List Char} (h : ∀ c ∈ gap, isBlank c = true) (text : List Char) :
    storage? (gap ++ text) = storage? text := by
  induction gap with
  | nil => rfl
  | cons c gap ih =>
      obtain ⟨hc, hgap⟩ := List.forall_mem_cons.mp h
      have hread : storageField? (c :: (gap ++ text)) = storageField? (gap ++ text) := by
        rw [storageField?, storageField?, trimStart_blank hc]
      rw [List.cons_append, ← ih hgap, storage?_eq, storage?_eq (gap ++ text), hread]
      cases hfound : storageField? (gap ++ text) with
      | some type => rfl
      | none =>
          rw [afterLine?]
          split
          · rw [Option.orElse_none, Option.orElse_none, Option.bind_some, storage?_eq, hfound]
            rfl
          · rfl

section

variable {line : List Char} (h : '\n' ∉ line) (lineBreak : LineBreak) (rest : List Char)
include h

theorem membersBehind_line : membersBehind (line ++ (lineBreak.text ++ rest)) = enumMembers rest := by
  rw [membersBehind, lineBreak.afterLine?_line h]
  rfl

theorem storage?_line (hline : storageField? (line ++ (lineBreak.text ++ rest)) = none) :
    storage? (line ++ (lineBreak.text ++ rest)) = storage? rest := by
  rw [storage?_eq, hline, lineBreak.afterLine?_line h]
  rfl

end

section

variable (lineBreak : LineBreak) (rest : List Char)

theorem WrittenConstant.enumMembers_text (constant : WrittenConstant) :
    enumMembers (constant.text lineBreak ++ rest) = constant.member :: enumMembers rest := by
  have hbehind := membersBehind_line List.not_mem_nil lineBreak rest
  rw [text, List.append_assoc, enumMembers_gap constant.blank, List.append_assoc, enumMembers_eq,
    constant.read?_line]
  exact congrArg (constant.member :: ·) hbehind

theorem WrittenConstant.storage?_text (constant : WrittenConstant) :
    storage? (constant.text lineBreak ++ rest) = storage? rest := by
  rw [text, List.append_assoc, storage?_gap constant.blank, List.append_assoc,
    storage?_line constant.break_not_mem_line _ _ (constant.storageField?_line _)]

theorem WrittenStorage.enumMembers_text (storage : WrittenStorage) :
    enumMembers (storage.text lineBreak ++ rest) = enumMembers rest := by
  rw [text, List.append_assoc, enumMembers_gap storage.blank, List.append_assoc, enumMembers_eq,
    storage.read?_line]
  exact membersBehind_line storage.break_not_mem_line lineBreak rest

theorem WrittenStorage.storage?_text (storage : WrittenStorage) :
    storage? (storage.text lineBreak ++ rest) = some (String.ofList storage.type) := by
  rw [text, List.append_assoc, storage?_gap storage.blank, List.append_assoc, storage?_eq,
    storage.storageField?_line]
  rfl

end

-- The body of an enum with its constants, one on each line. The field that holds the value may stand
-- anywhere among them, or be missing.
structure WrittenEnum where
  lineBreak : LineBreak
  before : List WrittenConstant
  storage : Option WrittenStorage
  after : List WrittenConstant

namespace WrittenEnum

def constants (written : WrittenEnum) : List WrittenConstant :=
  written.before ++ written.after

def constantsText (written : WrittenEnum) (constants : List WrittenConstant) : List Char :=
  constants.flatMap fun constant => constant.text written.lineBreak

def storageText (written : WrittenEnum) : List Char :=
  match written.storage with
  | some storage => storage.text written.lineBreak
  | none => []

def text (written : WrittenEnum) : List Char :=
  written.constantsText written.before ++
    (written.storageText ++ written.constantsText written.after)

def storageType? (written : WrittenEnum) : Option String :=
  written.storage.map fun storage => String.ofList storage.type

variable (written : WrittenEnum)

theorem constantsText_cons (constant : WrittenConstant) (others : List WrittenConstant)
    (rest : List Char) :
    written.constantsText (constant :: others) ++ rest =
      constant.text written.lineBreak ++ (written.constantsText others ++ rest) := by
  rw [constantsText, List.flatMap_cons, List.append_assoc, constantsText]

theorem enumMembers_constantsText (constants : List WrittenConstant) (rest : List Char) :
    enumMembers (written.constantsText constants ++ rest) =
      constants.map WrittenConstant.member ++ enumMembers rest := by
  induction constants with
  | nil => rfl
  | cons constant others ih =>
      rw [constantsText_cons, constant.enumMembers_text, ih]
      rfl

theorem storage?_constantsText (constants : List WrittenConstant) (rest : List Char) :
    storage? (written.constantsText constants ++ rest) = storage? rest := by
  induction constants with
  | nil => rfl
  | cons constant others ih =>
      rw [constantsText_cons, constant.storage?_text, ih]

-- The constants are read as they were written, in their order.
theorem enumMembers_text : enumMembers written.text = written.constants.map WrittenConstant.member := by
  have hafter : enumMembers (written.constantsText written.after) =
      written.after.map WrittenConstant.member := by
    have hread := written.enumMembers_constantsText written.after []
    rwa [List.append_nil, show enumMembers [] = [] from rfl, List.append_nil] at hread
  rw [text, enumMembers_constantsText, constants, List.map_append, storageText]
  split
  · rw [WrittenStorage.enumMembers_text, hafter]
  · rw [List.nil_append, hafter]

theorem storage?_text : storage? written.text = written.storageType? := by
  rw [text, storage?_constantsText, storageText, storageType?]
  split
  · rename_i storage hsome
    rw [storage.storage?_text, hsome]
    rfl
  · rename_i hnone
    have hafter := written.storage?_constantsText written.after []
    have hend : storage? [] = none := by
      rw [storage?_eq]
      rfl
    rw [List.append_nil, hend] at hafter
    rw [List.nil_append, hafter, hnone]
    rfl

end WrittenEnum

end TypeAtlas.Dump
