import TypeAtlas.Offset
import TypeAtlas.Proofs.Text.Digits

namespace TypeAtlas.Text

theorem toNat_le_of_isHex {c : Char} (h : isHex c = true) : c.toNat ≤ 'f'.toNat := by
  have hle {a b : Char} (hab : a ≤ b) : a.toNat ≤ b.toNat := hab
  simp only [isHex, hexValue?, Bool.and_eq_true, decide_eq_true_eq] at h
  split at h
  · rename_i hd
    exact Nat.le_trans (hle hd.2) (by decide)
  · split at h
    · rename_i hd
      exact hle hd.2
    · split at h
      · rename_i hd
        exact Nat.le_trans (hle hd.2) (by decide)
      · cases h

theorem isBlank_of_isHex {c : Char} (h : isHex c = true) : isBlank c = false := by
  have hlow : ∀ n ≤ 'f'.toNat, isHex (Char.ofNat n) = true → isBlank (Char.ofNat n) = false := by
    decide
  have hchar := hlow c.toNat (toNat_le_of_isHex h)
  rw [Char.ofNat_toNat] at hchar
  exact hchar h

theorem trim_eq_self {text : List Char} (h : ∀ c ∈ text, isBlank c = false) :
    trim text = text := by
  have hstart (s : List Char) (hs : ∀ c ∈ s, isBlank c = false) : s.dropWhile isBlank = s := by
    cases s with
    | nil => rfl
    | cons c rest => simp [hs c List.mem_cons_self]
  have hback : ∀ c ∈ text.reverse, isBlank c = false := by simpa using h
  rw [trim, trimStart, trimEnd, hstart text h, hstart text.reverse hback, List.reverse_reverse]

end TypeAtlas.Text

namespace TypeAtlas.Offset

open Text

-- What offsets are compared by: the value, or the text where there is none.
def key (offset : String) : UInt64 ⊕ String :=
  match parse? offset with
  | some x => .inl x
  | none => .inr offset

-- A text with a value and one without are never the same text, so one notion covers both.
theorem same_iff_key {a b : String} : same a b = true ↔ key a = key b := by
  cases ha : parse? a with
  | none =>
      cases hb : parse? b with
      | none => simp [same, key, ha, hb]
      | some y =>
          have hne : a ≠ b := by
            rintro rfl
            cases ha.symm.trans hb
          simp [same, key, ha, hb, hne]
  | some x =>
      cases hb : parse? b with
      | none =>
          have hne : a ≠ b := by
            rintro rfl
            cases ha.symm.trans hb
          simp [same, key, ha, hb, hne]
      | some y => simp [same, key, ha, hb]

theorem same_equivalence : Equivalence fun a b => same a b = true where
  refl _ := same_iff_key.mpr rfl
  symm h := same_iff_key.mpr (same_iff_key.mp h).symm
  trans hab hbc := same_iff_key.mpr ((same_iff_key.mp hab).trans (same_iff_key.mp hbc))

theorem same_comm (a b : String) : same a b = same b a := by
  rw [Bool.eq_iff_iff, same_iff_key, same_iff_key, eq_comm]

def hexText (x : UInt64) : String :=
  String.ofList ('0' :: 'x' :: hexPadded 1 x.toNat)

theorem unsigned_of_isHex {digits : List Char} (h : ∀ c ∈ digits, isHex c = true) :
    unsigned digits = digits := by
  unfold unsigned
  split
  · exact absurd (h '+' List.mem_cons_self) (by decide)
  · rfl

theorem parse?_marked {digits : List Char} (h : ∀ c ∈ digits, isHex c = true) :
    parse? (String.ofList ('0' :: 'x' :: digits)) =
      (hexNumber? digits).bind fun n => if n < UInt64.size then some (.ofNat n) else none := by
  have hblank : ∀ c ∈ '0' :: 'x' :: digits, isBlank c = false := by
    refine List.forall_mem_cons.mpr ⟨rfl, List.forall_mem_cons.mpr ⟨rfl, ?_⟩⟩
    exact fun c hc => isBlank_of_isHex (h c hc)
  have htrim : trim (String.ofList ('0' :: 'x' :: digits)).toList = '0' :: 'x' :: digits := by
    rw [String.toList_ofList, trim_eq_self hblank]
  rw [parse?, htrim, unmarked, unsigned_of_isHex h]
  cases hexNumber? digits with
  | none => rfl
  | some n => rfl

theorem parse?_hexText (x : UInt64) : parse? (hexText x) = some x := by
  have hnumber := hexNumber?_hexPadded 1 x.toNat
  have hhex : ∀ c ∈ hexPadded 1 x.toNat, isHex c = true := by
    intro c hc
    simp only [hexNumber?, number?] at hnumber
    split at hnumber
    · cases hnumber
    · exact isHex_of_numberFrom? hnumber c hc
  have hlt : x.toNat < UInt64.size := x.toNat_lt
  rw [hexText, parse?_marked hhex, hnumber]
  simp [hlt]

-- The offset zero is written with zeros alone.
theorem parse?_eq_zero_iff {digits : List Char} (hne : digits ≠ [])
    (h : ∀ c ∈ digits, isHex c = true) :
    parse? (String.ofList ('0' :: 'x' :: digits)) = some 0 ↔ ∀ c ∈ digits, c = '0' := by
  rw [parse?_marked h, ← hexNumber?_eq_zero_iff hne]
  cases hexNumber? digits with
  | none => exact ⟨nofun, nofun⟩
  | some n =>
      rw [Option.bind_some, Option.some_inj]
      constructor
      · intro hzero
        split at hzero
        · rename_i hlt
          have hval := congrArg UInt64.toNat (Option.some.inj hzero)
          rwa [UInt64.toNat_ofNat_of_lt' hlt] at hval
        · cases hzero
      · rintro rfl
        rfl

-- One spelling for all offsets that are the same.
def plain (offset : String) : String :=
  match key offset with
  | .inl x => hexText x
  | .inr text => text

theorem plain_eq_of_same {a b : String} (h : same a b = true) : plain a = plain b := by
  rw [plain, plain, same_iff_key.mp h]

theorem same_plain (offset : String) : same (plain offset) offset = true := by
  rw [same_iff_key]
  cases h : parse? offset with
  | none => simp [plain, key, h]
  | some x => simp [plain, key, h, parse?_hexText]

end TypeAtlas.Offset
