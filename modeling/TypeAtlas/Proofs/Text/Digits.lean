import Mathlib.Data.Nat.Digits.Defs
import Mathlib.Tactic.Ring
import TypeAtlas.Text.Digits

namespace TypeAtlas.Text

variable {value? : Char → Option Nat} {base : Nat}

theorem numberFrom?_append (n : Nat) (front back : List Char) :
    numberFrom? value? base n (front ++ back) =
      (numberFrom? value? base n front).bind fun m => numberFrom? value? base m back := by
  induction front generalizing n with
  | nil => rfl
  | cons c rest ih =>
      simp only [List.cons_append, numberFrom?]
      cases value? c with
      | none => rfl
      | some d => exact ih _

-- The digits of a number in any base read back as the number, if the reader knows each digit.
theorem numberFrom?_toDigits (hbase : 1 < base)
    (hdigit : ∀ d < base, value? (Nat.digitChar d) = some d) (n : Nat) :
    numberFrom? value? base 0 (Nat.toDigits base n) = some n := by
  induction n using Nat.base_induction base hbase with
  | single d hd => simp [Nat.toDigits_of_lt_base hd, numberFrom?, hdigit d hd]
  | digit n d hd hn ih =>
      rw [← Nat.toDigits_append_toDigits hbase hn hd, numberFrom?_append, ih,
        Nat.toDigits_of_lt_base hd]
      simp [numberFrom?, hdigit d hd, Nat.mul_comm]

-- The number that digits write is the sum of their values, each at the power of the base that its
-- place has.
theorem numberFrom?_map {δ : Type} {char : δ → Char} {value : δ → Nat}
    (hvalue : ∀ d, value? (char d) = some (value d)) (n : Nat) (digits : List δ) :
    numberFrom? value? base n (digits.map char) =
      some (n * base ^ digits.length + Nat.ofDigits base (digits.reverse.map value)) := by
  induction digits generalizing n with
  | nil => simp [numberFrom?]
  | cons d rest ih =>
      simp only [List.map_cons, numberFrom?, hvalue, ih, List.length_cons, List.reverse_cons,
        List.map_append, List.map_nil, Nat.ofDigits_append, Nat.ofDigits_singleton,
        List.length_map, List.length_reverse, Option.some_inj]
      ring

-- A number grows with each digit.
theorem le_of_numberFrom? (hbase : 0 < base) {n total : Nat} {digits : List Char}
    (h : numberFrom? value? base n digits = some total) : n ≤ total := by
  induction digits generalizing n with
  | nil => exact Nat.le_of_eq (Option.some.inj h)
  | cons c rest ih =>
      simp only [numberFrom?] at h
      split at h
      · have hstep := ih h
        have hmul := Nat.le_mul_of_pos_right n hbase
        omega
      · cases h

theorem isHex_of_numberFrom? {n total : Nat} {digits : List Char}
    (h : numberFrom? hexValue? base n digits = some total) : ∀ c ∈ digits, isHex c = true := by
  induction digits generalizing n with
  | nil => simp
  | cons c rest ih =>
      simp only [numberFrom?] at h
      split at h
      · rename_i d hd
        have hc : isHex c = true := by simp [isHex, hd]
        exact List.forall_mem_cons.mpr ⟨hc, ih h⟩
      · cases h

theorem decimalValue?_digitChar : ∀ d < 10, decimalValue? (Nat.digitChar d) = some d := by
  decide

theorem hexValue?_digitChar : ∀ d < 16, hexValue? (Nat.digitChar d) = some d := by
  decide

theorem numberFrom?_decimal (n : Nat) :
    numberFrom? decimalValue? 10 0 (Nat.toDigits 10 n) = some n :=
  numberFrom?_toDigits (by decide) decimalValue?_digitChar n

-- Only zero is written with a zero in front.
theorem head_toDigits_ne_zero {n : Nat} (hbase : 1 < base) (hten : base ≤ 10) (hn : 0 < n) :
    ∃ c rest, Nat.toDigits base n = c :: rest ∧ c ≠ '0' := by
  induction n using Nat.base_induction base hbase with
  | single d hd =>
      refine ⟨_, _, Nat.toDigits_of_lt_base hd, ?_⟩
      have hchar : ∀ d < 10, 0 < d → Nat.digitChar d ≠ '0' := by decide
      exact hchar d (by omega) hn
  | digit n d hd hpos ih =>
      obtain ⟨c, rest, hdigits, hc⟩ := ih hpos
      refine ⟨c, rest ++ Nat.toDigits base d, ?_, hc⟩
      rw [← Nat.toDigits_append_toDigits hbase hpos hd, hdigits, List.cons_append]

-- Zeros in front of the digits of a number change nothing.
theorem number?_padded (hbase : 1 < base) (hzero : value? '0' = some 0)
    (hdigit : ∀ d < base, value? (Nat.digitChar d) = some d) (zeros n : Nat) :
    number? value? base (List.replicate zeros '0' ++ Nat.toDigits base n) = some n := by
  have hzeros : numberFrom? value? base 0 (List.replicate zeros '0') = some 0 := by
    induction zeros with
    | zero => rfl
    | succ zeros ih => simpa [List.replicate_succ, numberFrom?, hzero] using ih
  have hdigits := numberFrom?_toDigits hbase hdigit n
  simp [number?, numberFrom?_append, hzeros, hdigits]

theorem hexNumber?_hexPadded (width n : Nat) : hexNumber? (hexPadded width n) = some n :=
  number?_padded (by decide) rfl hexValue?_digitChar _ n

theorem length_hexPadded {width n : Nat} (hwidth : 0 < width) (hn : n < 16 ^ width) :
    (hexPadded width n).length = width := by
  have hlen := (Nat.length_toDigits_le_iff (by decide) hwidth).mpr hn
  simp only [hexPadded, List.length_append, List.length_replicate]
  omega

theorem hexValue?_eq_zero_iff {c : Char} : hexValue? c = some 0 ↔ c = '0' := by
  constructor
  · intro h
    simp only [hexValue?, Bool.and_eq_true, decide_eq_true_eq] at h
    split at h
    · rename_i hrange
      have hlow : '0'.toNat ≤ c.toNat := hrange.1
      have hsub := Option.some.inj h
      have hval : c.toNat = '0'.toNat := by omega
      rw [← Char.ofNat_toNat c, hval]
      rfl
    · split at h
      · have hsum := Option.some.inj h
        omega
      · split at h
        · have hsum := Option.some.inj h
          omega
        · cases h
  · rintro rfl
    rfl

-- Zero is written with zeros alone.
theorem numberFrom?_eq_zero_iff {n : Nat} {digits : List Char} :
    numberFrom? hexValue? 16 n digits = some 0 ↔ n = 0 ∧ ∀ c ∈ digits, c = '0' := by
  induction digits generalizing n with
  | nil => simp [numberFrom?]
  | cons c rest ih =>
      rw [List.forall_mem_cons, ← hexValue?_eq_zero_iff, numberFrom?]
      cases hd : hexValue? c with
      | none => simp
      | some d =>
          dsimp only
          rw [ih]
          simp only [Option.some.injEq, ← and_assoc]
          refine and_congr_left fun _ => ?_
          omega

theorem hexNumber?_eq_zero_iff {digits : List Char} (hne : digits ≠ []) :
    hexNumber? digits = some 0 ↔ ∀ c ∈ digits, c = '0' := by
  have hnumber : hexNumber? digits = numberFrom? hexValue? 16 0 digits := by
    simp [hexNumber?, number?, hne]
  rw [hnumber, numberFrom?_eq_zero_iff]
  exact and_iff_right rfl

end TypeAtlas.Text
