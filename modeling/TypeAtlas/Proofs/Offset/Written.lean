import Mathlib.Data.Set.List
import TypeAtlas.Proofs.Offset
import TypeAtlas.Proofs.Text.Written

namespace TypeAtlas.Text

-- A hexadecimal digit in one of the two cases.
structure HexDigit where
  value : Fin 16
  isUpper : Bool

namespace HexDigit

def char (digit : HexDigit) : Char :=
  if digit.isUpper then (Nat.digitChar digit.value).toUpper else Nat.digitChar digit.value

theorem hexValue?_char (digit : HexDigit) : hexValue? digit.char = some digit.value.val := by
  obtain ⟨value, isUpper⟩ := digit
  have hboth : ∀ v : Fin 16, hexValue? (Nat.digitChar v).toUpper = some v.val ∧
      hexValue? (Nat.digitChar v) = some v.val := by
    decide +kernel
  cases isUpper with
  | true => exact (hboth value).1
  | false => exact (hboth value).2

theorem isHex_char (digit : HexDigit) : isHex digit.char = true := by
  rw [isHex, digit.hexValue?_char, Option.isSome_some]

theorem exists_of_isHex {c : Char} (h : isHex c = true) : ∃ digit : HexDigit, digit.char = c := by
  have hlow : ∀ n ≤ 'f'.toNat, isHex (Char.ofNat n) = true →
      ∃ v : Fin 16, char ⟨v, true⟩ = Char.ofNat n ∨ char ⟨v, false⟩ = Char.ofNat n := by
    decide +kernel
  have hc := hlow c.toNat (toNat_le_of_isHex h)
  rw [Char.ofNat_toNat] at hc
  obtain ⟨v, hupper | hlower⟩ := hc h
  · exact ⟨_, hupper⟩
  · exact ⟨_, hlower⟩

theorem exists_map_of_isHex {digits : List Char} (h : ∀ c ∈ digits, isHex c = true) :
    ∃ written : List HexDigit, written.map char = digits := by
  have hrange : digits ∈ {l | ∀ c ∈ l, c ∈ Set.range char} := fun c hc => exists_of_isHex (h c hc)
  rwa [← Set.range_list_map] at hrange

end HexDigit

theorem hexNumber?_map {digits : List HexDigit} (hne : digits ≠ []) :
    hexNumber? (digits.map HexDigit.char) =
      some (Nat.ofDigits 16 (digits.reverse.map fun digit => digit.value.val)) := by
  have hempty : (digits.map HexDigit.char).isEmpty = false := by simp [hne]
  rw [hexNumber?, number?, hempty, if_neg Bool.false_ne_true,
    numberFrom?_map HexDigit.hexValue?_char, Nat.zero_mul, Nat.zero_add]

end TypeAtlas.Text

namespace TypeAtlas.Offset

open Text

def marks : List (List Char) :=
  [[], ['0', 'x'], ['0', 'X']]

def signs : List (List Char) :=
  [[], ['+']]

theorem unmarked_of_not_mem {text : List Char} (hlower : 'x' ∉ text) (hupper : 'X' ∉ text) :
    unmarked text = text := by
  unfold unmarked
  split
  · exact absurd (by simp) hlower
  · exact absurd (by simp) hupper
  · rfl

-- An offset as a text.
structure WrittenOffset where
  before : List Char
  mark : List Char
  sign : List Char
  digits : List HexDigit
  after : List Char
  blankBefore : ∀ c ∈ before, isBlank c = true
  isMark : mark ∈ marks
  isSign : sign ∈ signs
  numbered : digits ≠ []
  blankAfter : ∀ c ∈ after, isBlank c = true

namespace WrittenOffset

-- An offset without the blanks around it.
def core (written : WrittenOffset) : List Char :=
  written.mark ++ (written.sign ++ written.digits.map HexDigit.char)

def text (written : WrittenOffset) : List Char :=
  written.before ++ written.core ++ written.after

def value (written : WrittenOffset) : Nat :=
  Nat.ofDigits 16 (written.digits.reverse.map fun digit => digit.value.val)

variable (written : WrittenOffset)

theorem isHex_of_mem_digits {c : Char} (h : c ∈ written.digits.map HexDigit.char) :
    isHex c = true := by
  obtain ⟨digit, -, rfl⟩ := List.mem_map.mp h
  exact digit.isHex_char

theorem isBlank_of_mem_core {c : Char} (h : c ∈ written.core) : isBlank c = false := by
  have hmark : ∀ mark ∈ marks, ∀ c ∈ mark, isBlank c = false := by decide
  have hsign : ∀ sign ∈ signs, ∀ c ∈ sign, isBlank c = false := by decide
  rcases List.mem_append.mp h with h | h
  · exact hmark _ written.isMark c h
  · rcases List.mem_append.mp h with h | h
    · exact hsign _ written.isSign c h
    · exact isBlank_of_isHex (written.isHex_of_mem_digits h)

theorem core_ne_nil : written.core ≠ [] := by
  simp [core, written.numbered]

theorem trim_text : trim written.text = written.core := by
  have hends {text : List Char} (htext : ∀ c ∈ text, isBlank c = false) (hne : text ≠ [])
      (more : List Char) : EndsRun isBlank (text ++ more) := by
    obtain ⟨c, rest, rfl⟩ := List.exists_cons_of_ne_nil hne
    exact .cons (htext c List.mem_cons_self) _
  apply trim_written
  · exact hends (fun c hc => written.isBlank_of_mem_core hc) written.core_ne_nil _
  · rw [← List.append_nil written.core.reverse]
    refine hends (fun c hc => written.isBlank_of_mem_core (List.mem_reverse.mp hc)) ?_ []
    exact List.reverse_ne_nil_iff.mpr written.core_ne_nil
  · exact written.blankBefore
  · exact written.blankAfter

-- A mark is dropped once: what follows it begins with no other.
theorem unmarked_core :
    unmarked written.core = written.sign ++ written.digits.map HexDigit.char := by
  have hsign : ∀ sign ∈ signs, 'x' ∉ sign ∧ 'X' ∉ sign := by decide
  have hletter {c : Char} (hc : isHex c = false) (hsign : c ∉ written.sign) :
      c ∉ written.sign ++ written.digits.map HexDigit.char := by
    intro hmem
    rcases List.mem_append.mp hmem with hmem | hmem
    · exact hsign hmem
    · rw [written.isHex_of_mem_digits hmem] at hc
      cases hc
  obtain ⟨hlower, hupper⟩ := hsign _ written.isSign
  have hmark := written.isMark
  simp only [marks, List.mem_cons, List.not_mem_nil, or_false] at hmark
  rcases hmark with hmark | hmark | hmark
  · rw [core, hmark, List.nil_append]
    exact unmarked_of_not_mem (hletter rfl hlower) (hletter rfl hupper)
  · rw [core, hmark]
    rfl
  · rw [core, hmark]
    rfl

theorem unsigned_digits :
    unsigned (written.sign ++ written.digits.map HexDigit.char) =
      written.digits.map HexDigit.char := by
  have hsign := written.isSign
  simp only [signs, List.mem_cons, List.not_mem_nil, or_false] at hsign
  rcases hsign with hsign | hsign
  · rw [hsign, List.nil_append]
    exact unsigned_of_isHex fun c hc => written.isHex_of_mem_digits hc
  · rw [hsign]
    rfl

-- A written offset is read as its value, and not at all where that does not fit.
theorem parse?_eq {offset : String} (h : offset.toList = written.text) :
    parse? offset =
      if written.value < UInt64.size then some (UInt64.ofNat written.value) else none := by
  rw [parse?, h, written.trim_text, written.unmarked_core, written.unsigned_digits,
    hexNumber?_map written.numbered]
  rfl

theorem parse?_eq_none_iff {offset : String} (h : offset.toList = written.text) :
    parse? offset = none ↔ 2 ^ 64 ≤ written.value := by
  rw [written.parse?_eq h]
  by_cases hfits : written.value < UInt64.size
  · rw [if_pos hfits]
    exact iff_of_false (Option.some_ne_none _) (Nat.not_le_of_lt hfits)
  · rw [if_neg hfits]
    exact iff_of_true rfl (Nat.le_of_not_lt hfits)

end WrittenOffset

theorem exists_mark (text : List Char) : ∃ mark ∈ marks, text = mark ++ unmarked text := by
  unfold unmarked
  split
  · exact ⟨['0', 'x'], by decide, rfl⟩
  · exact ⟨['0', 'X'], by decide, rfl⟩
  · exact ⟨[], by decide, rfl⟩

theorem exists_sign (text : List Char) : ∃ sign ∈ signs, text = sign ++ unsigned text := by
  unfold unsigned
  split
  · exact ⟨['+'], by decide, rfl⟩
  · exact ⟨[], by decide, rfl⟩

theorem exists_digits {digits : List Char} {n : Nat} (h : hexNumber? digits = some n) :
    ∃ written : List HexDigit, written ≠ [] ∧ digits = written.map HexDigit.char := by
  rw [hexNumber?, number?] at h
  split at h
  · cases h
  · rename_i hempty
    obtain ⟨written, rfl⟩ := HexDigit.exists_map_of_isHex (isHex_of_numberFrom? h)
    refine ⟨written, ?_, rfl⟩
    rintro rfl
    exact hempty rfl

-- Only written offsets are read.
theorem exists_written_of_parse? {offset : String} {x : UInt64} (h : parse? offset = some x) :
    ∃ written : WrittenOffset, offset.toList = written.text := by
  rw [parse?] at h
  split at h
  · rename_i n hnumber
    obtain ⟨before, after, htrim, hbefore, hafter⟩ := trim_spec offset.toList
    obtain ⟨mark, hmark, hcore⟩ := exists_mark (trim offset.toList)
    obtain ⟨sign, hsign, hbody⟩ := exists_sign (unmarked (trim offset.toList))
    obtain ⟨digits, hdigits, htail⟩ := exists_digits hnumber
    refine ⟨⟨before, mark, sign, digits, after, hbefore, hmark, hsign, hdigits, hafter⟩, ?_⟩
    rw [WrittenOffset.text, WrittenOffset.core, ← htail, ← hbody, ← hcore]
    exact htrim
  · cases h

theorem parse?_eq_some_iff {offset : String} {x : UInt64} :
    parse? offset = some x ↔
      ∃ written : WrittenOffset, offset.toList = written.text ∧ written.value = x.toNat := by
  constructor
  · intro h
    obtain ⟨written, htext⟩ := exists_written_of_parse? h
    refine ⟨written, htext, ?_⟩
    rw [written.parse?_eq htext] at h
    split at h
    · rename_i hfits
      cases h
      exact (UInt64.toNat_ofNat_of_lt' hfits).symm
    · cases h
  · rintro ⟨written, htext, hvalue⟩
    have hfits : written.value < UInt64.size := hvalue ▸ x.toNat_lt
    rw [written.parse?_eq htext, if_pos hfits, hvalue, UInt64.ofNat_toNat]

theorem parse?_eq_none_iff {offset : String} :
    parse? offset = none ↔
      ∀ written : WrittenOffset, offset.toList = written.text → 2 ^ 64 ≤ written.value := by
  constructor
  · intro h written htext
    exact (written.parse?_eq_none_iff htext).mp h
  · intro h
    cases hparse : parse? offset with
    | none => rfl
    | some x =>
        obtain ⟨written, htext, hvalue⟩ := parse?_eq_some_iff.mp hparse
        have hlarge := h written htext
        have hsmall := x.toNat_lt
        omega

-- Where both texts have a value the values decide, and otherwise the texts do.
theorem same_iff {a b : String} :
    same a b = true ↔
      (∃ x, parse? a = some x ∧ parse? b = some x) ∨
        (parse? a = none ∨ parse? b = none) ∧ a = b := by
  rw [same]
  cases ha : parse? a with
  | none => simp
  | some x =>
      cases hb : parse? b with
      | none => simp
      | some y =>
          simp only [beq_iff_eq, Option.some_inj, exists_eq_left', reduceCtorEq, or_self, false_and,
            or_false]
          exact eq_comm

-- Offsets are read exactly: from the written ones whose value fits 64 bits, as that value, and from no
-- other text. They compare as an equivalence, by their values or else by their texts.
theorem offsets_exact :
    (∀ offset x, parse? offset = some x ↔
        ∃ written : WrittenOffset, offset.toList = written.text ∧ written.value = x.toNat) ∧
      (∀ offset, parse? offset = none ↔
        ∀ written : WrittenOffset, offset.toList = written.text → 2 ^ 64 ≤ written.value) ∧
      (∀ written : WrittenOffset,
        parse? (String.ofList written.text) = none ↔ 2 ^ 64 ≤ written.value) ∧
      (∀ a b, same a b = true ↔
        (∃ x, parse? a = some x ∧ parse? b = some x) ∨
          (parse? a = none ∨ parse? b = none) ∧ a = b) ∧
      (Equivalence fun a b => same a b = true) ∧
      ∀ x, parse? (hexText x) = some x :=
  ⟨fun _ _ => parse?_eq_some_iff, fun _ => parse?_eq_none_iff,
    fun written => written.parse?_eq_none_iff String.toList_ofList, fun _ _ => same_iff,
    same_equivalence, parse?_hexText⟩

-- One mark is dropped and no more, and zeros in front do not count.
example : parse? " 0X+00ff\n" = some 255 ∧ parse? "0x0x10" = none := by
  decide +kernel

end TypeAtlas.Offset
