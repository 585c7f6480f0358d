import Mathlib.Data.Nat.Find
import TypeAtlas.Proofs.Text.ByteOffset

namespace TypeAtlas.Text

-- Bytes that a character begins with, all of its bytes included.
def BeginsChar (front : List UInt8) : Prop :=
  ∃ c : Char, front <+: String.utf8EncodeChar c

-- The bytes that one replacement character stands for, where no character begins: the longest front
-- that a character could begin with, or one byte where there is no such front.
structure IsMaximalSubpart (part rest : List UInt8) : Prop where
  unreadable : ∀ c : Char, ¬String.utf8EncodeChar c <+: part ++ rest
  ne_nil : part ≠ []
  begins : BeginsChar part ∨ part.length = 1
  longest : ∀ front, front <+: part ++ rest → BeginsChar front → front.length ≤ part.length

-- What bytes are read as.
inductive Decodes : List UInt8 → List Char → Prop
  | nil : Decodes [] []
  | char (c : Char) {rest : List UInt8} {text : List Char} :
      Decodes rest text → Decodes (String.utf8EncodeChar c ++ rest) (c :: text)
  | subpart {part rest : List UInt8} {text : List Char} :
      IsMaximalSubpart part rest → Decodes rest text → Decodes (part ++ rest) (replacement :: text)

-- The bytes of one character, by the digits of its code. The bounds leave out what takes fewer bytes,
-- halves of surrogate pairs, and codes beyond the last character.
inductive IsCharCode : List UInt8 → Prop
  | one {n : Nat} : n < 0x80 → IsCharCode [UInt8.ofNat n]
  | two {a d : Nat} : 2 ≤ a → a < 0x20 → d < 0x40 →
      IsCharCode [UInt8.ofNat (a + 0xC0), UInt8.ofNat (d + 0x80)]
  | three {a d e : Nat} : a < 0x10 → (a = 0 → 0x20 ≤ d) → (a = 0xD → d < 0x20) → d < 0x40 → e < 0x40 →
      IsCharCode [UInt8.ofNat (a + 0xE0), UInt8.ofNat (d + 0x80), UInt8.ofNat (e + 0x80)]
  | four {a d e f : Nat} : a < 5 → (a = 0 → 0x10 ≤ d) → (a = 4 → d < 0x10) → d < 0x40 → e < 0x40 →
      f < 0x40 → IsCharCode [UInt8.ofNat (a + 0xF0), UInt8.ofNat (d + 0x80), UInt8.ofNat (e + 0x80),
        UInt8.ofNat (f + 0x80)]

theorem isCharCode_utf8EncodeChar (c : Char) : IsCharCode (String.utf8EncodeChar c) := by
  have hvalid : c.val.toNat < 0xD800 ∨ 0xDFFF < c.val.toNat ∧ c.val.toNat < 0x110000 := c.valid
  unfold String.utf8EncodeChar
  generalize c.val.toNat = v at hvalid
  dsimp only
  split
  · exact .one (by omega)
  split
  · exact .two (by omega) (by omega) (by omega)
  split
  · exact .three (by omega) (by omega) (by omega) (by omega) (by omega)
  · exact .four (by omega) (by omega) (by omega) (by omega) (by omega) (by omega)

theorem toNat_ofNat_of_isValidChar {n : Nat} (h : n < 0xD800 ∨ 0xDFFF < n ∧ n < 0x110000) :
    (Char.ofNat n).val.toNat = n := by
  have hvalid : n.isValidChar := h
  rw [Char.ofNat, dif_pos hvalid]
  rfl

theorem IsCharCode.exists_char {bytes : List UInt8} (h : IsCharCode bytes) :
    ∃ c : Char, String.utf8EncodeChar c = bytes := by
  cases h with
  | @one n hn =>
      refine ⟨Char.ofNat n, ?_⟩
      have hcode := toNat_ofNat_of_isValidChar (n := n) (by omega)
      simp only [String.utf8EncodeChar, hcode]
      rw [if_pos (by omega)]
  | @two a d hlow hhigh hd =>
      refine ⟨Char.ofNat (a * 64 + d), ?_⟩
      have hcode := toNat_ofNat_of_isValidChar (n := a * 64 + d) (by omega)
      have ha : (a * 64 + d) / 64 % 0x20 = a := by omega
      have hd : (a * 64 + d) % 0x40 = d := by omega
      simp only [String.utf8EncodeChar, hcode, ha, hd]
      rw [if_neg (by omega), if_pos (by omega)]
  | @three a d e hhigh hlow hgap hd he =>
      refine ⟨Char.ofNat ((a * 64 + d) * 64 + e), ?_⟩
      have hcode := toNat_ofNat_of_isValidChar (n := (a * 64 + d) * 64 + e) (by omega)
      have ha : ((a * 64 + d) * 64 + e) / 4096 % 0x10 = a := by omega
      have hd : ((a * 64 + d) * 64 + e) / 64 % 0x40 = d := by omega
      have he : ((a * 64 + d) * 64 + e) % 0x40 = e := by omega
      simp only [String.utf8EncodeChar, hcode, ha, hd, he]
      rw [if_neg (by omega), if_neg (by omega), if_pos (by omega)]
  | @four a d e f ha hlow hhigh hd he hf =>
      refine ⟨Char.ofNat (((a * 64 + d) * 64 + e) * 64 + f), ?_⟩
      have hcode := toNat_ofNat_of_isValidChar (n := ((a * 64 + d) * 64 + e) * 64 + f) (by omega)
      have ha : (((a * 64 + d) * 64 + e) * 64 + f) / 262144 % 0x08 = a := by omega
      have hd : (((a * 64 + d) * 64 + e) * 64 + f) / 4096 % 0x40 = d := by omega
      have he : (((a * 64 + d) * 64 + e) * 64 + f) / 64 % 0x40 = e := by omega
      have hf : (((a * 64 + d) * 64 + e) * 64 + f) % 0x40 = f := by omega
      simp only [String.utf8EncodeChar, hcode, ha, hd, he, hf]
      rw [if_neg (by omega), if_neg (by omega), if_neg (by omega)]

theorem beginsChar_iff {front : List UInt8} :
    BeginsChar front ↔ ∃ bytes, IsCharCode bytes ∧ front <+: bytes := by
  constructor
  · rintro ⟨c, hfront⟩
    exact ⟨_, isCharCode_utf8EncodeChar c, hfront⟩
  · rintro ⟨bytes, hbytes, hfront⟩
    obtain ⟨c, rfl⟩ := hbytes.exists_char
    exact ⟨c, hfront⟩

-- The bytes of a character but for the last ones, and how the character is read on behind them.
inductive Opened : List UInt8 → Partial → Prop
  | two {a : Nat} : 2 ≤ a → a < 0x20 → Opened [UInt8.ofNat (a + 0xC0)] ⟨1, 0x80, 0xBF, a⟩
  | three {a : Nat} : a < 0x10 →
      Opened [UInt8.ofNat (a + 0xE0)]
        ⟨2, if a = 0 then 0xA0 else 0x80, if a = 0xD then 0x9F else 0xBF, a⟩
  | threeMore {a d : Nat} : a < 0x10 → (a = 0 → 0x20 ≤ d) → (a = 0xD → d < 0x20) → d < 0x40 →
      Opened [UInt8.ofNat (a + 0xE0), UInt8.ofNat (d + 0x80)] ⟨1, 0x80, 0xBF, a * 64 + d⟩
  | four {a : Nat} : a < 5 →
      Opened [UInt8.ofNat (a + 0xF0)]
        ⟨3, if a = 0 then 0x90 else 0x80, if a = 4 then 0x8F else 0xBF, a⟩
  | fourMore {a d : Nat} : a < 5 → (a = 0 → 0x10 ≤ d) → (a = 4 → d < 0x10) → d < 0x40 →
      Opened [UInt8.ofNat (a + 0xF0), UInt8.ofNat (d + 0x80)] ⟨2, 0x80, 0xBF, a * 64 + d⟩
  | fourMost {a d e : Nat} : a < 5 → (a = 0 → 0x10 ≤ d) → (a = 4 → d < 0x10) → d < 0x40 → e < 0x40 →
      Opened [UInt8.ofNat (a + 0xF0), UInt8.ofNat (d + 0x80), UInt8.ofNat (e + 0x80)]
        ⟨1, 0x80, 0xBF, (a * 64 + d) * 64 + e⟩

-- Where a character is cut off it is open.
theorem IsCharCode.opened {b : UInt8} {part more : List UInt8} (h : IsCharCode (b :: (part ++ more)))
    (hmore : more ≠ []) : ∃ p, Opened (b :: part) p := by
  generalize hbytes : b :: (part ++ more) = bytes at h
  rcases part with _ | ⟨b₁, _ | ⟨b₂, _ | ⟨b₃, part⟩⟩⟩ <;>
    simp only [List.cons_append, List.nil_append] at hbytes
  · cases h with
    | one => cases hbytes; exact absurd rfl hmore
    | two hlow hhigh => cases hbytes; exact ⟨_, .two hlow hhigh⟩
    | three hhigh => cases hbytes; exact ⟨_, .three hhigh⟩
    | four hhigh => cases hbytes; exact ⟨_, .four hhigh⟩
  · cases h with
    | one => cases hbytes
    | two => cases hbytes; exact absurd rfl hmore
    | three hhigh hlow hgap hd => cases hbytes; exact ⟨_, .threeMore hhigh hlow hgap hd⟩
    | four ha hlow hhigh hd => cases hbytes; exact ⟨_, .fourMore ha hlow hhigh hd⟩
  · cases h with
    | one => cases hbytes
    | two => cases hbytes
    | three => cases hbytes; exact absurd rfl hmore
    | four ha hlow hhigh hd he => cases hbytes; exact ⟨_, .fourMost ha hlow hhigh hd he⟩
  · cases h with
    | one => cases hbytes
    | two => cases hbytes
    | three => cases hbytes
    | four =>
        cases part with
        | nil => cases hbytes; exact absurd rfl hmore
        | cons => cases hbytes

-- A byte within some bounds, by its last six bits.
theorem exists_digit {low high b : UInt8} (hlow : low ≤ b) (hhigh : b ≤ high)
    (hleast : 0x80 ≤ low.toNat) (hmost : high.toNat ≤ 0xBF) :
    ∃ d, d < 0x40 ∧ low.toNat ≤ d + 0x80 ∧ d + 0x80 ≤ high.toNat ∧ b = UInt8.ofNat (d + 0x80) := by
  rw [UInt8.le_iff_toNat_le] at hlow hhigh
  refine ⟨b.toNat - 0x80, by omega, by omega, by omega, ?_⟩
  rw [show b.toNat - 0x80 + 0x80 = b.toNat by omega, UInt8.ofNat_toNat]

-- A byte that an open character is read on with belongs to a character that begins so.
theorem Opened.beginsChar {part : List UInt8} {p : Partial} (h : Opened part p) {b : UInt8}
    (hlow : p.low ≤ b) (hhigh : b ≤ p.high) : BeginsChar (part ++ [b]) := by
  rw [beginsChar_iff]
  cases h with
  | @two a h2 h20 =>
      obtain ⟨d, hd, -, -, rfl⟩ := exists_digit hlow hhigh (by simp) (by simp)
      exact ⟨_, .two h2 h20 hd, List.prefix_rfl⟩
  | @three a ha =>
      obtain ⟨d, hd, hleast, hmost, rfl⟩ :=
        exists_digit hlow hhigh (by dsimp only; split <;> simp) (by dsimp only; split <;> simp)
      have hzero : a = 0 → 0x20 ≤ d := by
        rintro rfl
        simpa using hleast
      have hgap : a = 0xD → d < 0x20 := by
        rintro rfl
        simpa [Nat.lt_succ_iff] using hmost
      exact ⟨_, .three (e := 0) ha hzero hgap hd (by omega), _, rfl⟩
  | threeMore ha hzero hgap hd =>
      obtain ⟨e, he, -, -, rfl⟩ := exists_digit hlow hhigh (by simp) (by simp)
      exact ⟨_, .three ha hzero hgap hd he, List.prefix_rfl⟩
  | @four a ha =>
      obtain ⟨d, hd, hleast, hmost, rfl⟩ :=
        exists_digit hlow hhigh (by dsimp only; split <;> simp) (by dsimp only; split <;> simp)
      have hzero : a = 0 → 0x10 ≤ d := by
        rintro rfl
        simpa using hleast
      have hgap : a = 4 → d < 0x10 := by
        rintro rfl
        simpa [Nat.lt_succ_iff] using hmost
      exact ⟨_, .four (e := 0) (f := 0) ha hzero hgap hd (by omega) (by omega), _, rfl⟩
  | fourMore ha hzero hgap hd =>
      obtain ⟨e, he, -, -, rfl⟩ := exists_digit hlow hhigh (by simp) (by simp)
      exact ⟨_, .four (f := 0) ha hzero hgap hd he (by omega), _, rfl⟩
  | fourMost ha hzero hgap hd he =>
      obtain ⟨f, hf, -, -, rfl⟩ := exists_digit hlow hhigh (by simp) (by simp)
      exact ⟨_, .four ha hzero hgap hd he hf, List.prefix_rfl⟩

-- Behind the front of a character decoding is where the character is open.
theorem Opened.decodeFrom {part : List UInt8} {p : Partial} (h : Opened part p) (seen : List Char)
    (rest : List UInt8) :
    decodeFrom seen none (part ++ rest) = decodeFrom seen (some p) rest := by
  cases h with
  | two hlow hhigh => exact decodeFrom_lead seen rest (leadByte_two hlow hhigh)
  | three hhigh => exact decodeFrom_lead seen rest (leadByte_three hhigh)
  | threeMore hhigh hlow hgap hd =>
      rw [List.cons_append, decodeFrom_lead seen _ (leadByte_three hhigh)]
      exact decodeFrom_within seen _ rest hd (by split <;> simp; omega)
        (by split <;> simp <;> omega) 0
  | four hhigh => exact decodeFrom_lead seen rest (leadByte_four hhigh)
  | fourMore ha hlow hhigh hd =>
      rw [List.cons_append, decodeFrom_lead seen _ (leadByte_four ha)]
      exact decodeFrom_within seen _ rest hd (by split <;> simp; omega)
        (by split <;> simp <;> omega) 1
  | fourMost ha hlow hhigh hd he =>
      rw [List.cons_append, decodeFrom_lead seen _ (leadByte_four ha), List.cons_append,
        decodeFrom_within seen _ _ hd (by split <;> simp; omega) (by split <;> simp <;> omega) 1]
      exact decodeFrom_within seen _ rest he (by simp) (by simp; omega) 0

theorem BeginsChar.shorten {front part : List UInt8} (h : BeginsChar part)
    (hfront : front <+: part) : BeginsChar front := by
  obtain ⟨c, hpart⟩ := h
  exact ⟨c, hfront.trans hpart⟩

theorem Opened.begins {part : List UInt8} {p : Partial} (h : Opened part p) : BeginsChar part := by
  have hbounds : p.low ≤ p.high := by
    cases h with
    | @three a | @four a =>
        by_cases hzero : a = 0
        · subst hzero
          decide
        · simp only [if_neg hzero]
          split
          · decide
          · decide
    | _ => exact of_decide_eq_true rfl
  have hlow : p.low ≤ p.low := UInt8.le_refl p.low
  exact (h.beginsChar hlow hbounds).shorten (List.prefix_append part [p.low])

-- A byte that no character begins with is read as a replacement character.
theorem leadByte_of_not_beginsChar {b : UInt8} (h : ¬BeginsChar [b]) :
    leadByte b = ([replacement], none) := by
  have hbyte : UInt8.ofNat b.toNat = b := UInt8.ofNat_toNat
  have hsub {n : Nat} (hn : n ≤ b.toNat) : UInt8.ofNat (b.toNat - n + n) = b := by
    rw [Nat.sub_add_cancel hn, hbyte]
  rw [leadByte]
  simp only [UInt8.lt_iff_toNat_lt, UInt8.le_iff_toNat_le, Bool.and_eq_true, decide_eq_true_eq,
    UInt8.reduceToNat]
  split
  · rename_i hone
    have hcode := IsCharCode.one hone
    rw [hbyte] at hcode
    exact absurd (beginsChar_iff.mpr ⟨[b], hcode, List.prefix_rfl⟩) h
  split
  · rename_i htwo
    have hopened := Opened.two (a := b.toNat - 0xC0) (by omega) (by omega)
    rw [hsub (by omega)] at hopened
    exact absurd hopened.begins h
  split
  · rename_i hthree
    have hopened := Opened.three (a := b.toNat - 0xE0) (by omega)
    rw [hsub hthree.1] at hopened
    exact absurd hopened.begins h
  split
  · rename_i hfour
    have hopened := Opened.four (a := b.toNat - 0xF0) (by omega)
    rw [hsub hfour.1] at hopened
    exact absurd hopened.begins h
  · rfl

-- An open character that is not read on is read as a replacement character.
theorem decodeFrom_cut (seen : List Char) {p : Partial} {rest : List UInt8}
    (h : ∀ b ∈ rest.head?, ¬(p.low ≤ b ∧ b ≤ p.high)) :
    decodeFrom seen (some p) rest = decodeFrom (replacement :: seen) none rest := by
  cases rest with
  | nil => rfl
  | cons b rest =>
      have hout : (decide (p.low ≤ b) && decide (b ≤ p.high)) = false := by
        simpa using h b rfl
      simp [Text.decodeFrom, nextByte, hout]

-- A maximal subpart is read as one replacement character.
theorem IsMaximalSubpart.decodeFrom {part rest : List UInt8} (h : IsMaximalSubpart part rest)
    (seen : List Char) :
    decodeFrom seen none (part ++ rest) = decodeFrom (replacement :: seen) none rest := by
  obtain ⟨hunreadable, hne, hbegins, hlongest⟩ := h
  obtain ⟨b, part, rfl⟩ := List.exists_cons_of_ne_nil hne
  by_cases hpart : BeginsChar (b :: part)
  · obtain ⟨c, more, hc⟩ := hpart
    have hmore : more ≠ [] := by
      rintro rfl
      rw [List.append_nil] at hc
      exact hunreadable c ⟨rest, by rw [← hc]⟩
    obtain ⟨p, hopened⟩ := (hc ▸ isCharCode_utf8EncodeChar c).opened hmore
    rw [hopened.decodeFrom, decodeFrom_cut]
    rintro d hd ⟨hlow, hhigh⟩
    obtain ⟨rest, rfl⟩ := List.head?_eq_some_iff.mp hd
    have hlonger := hlongest (b :: part ++ [d]) ⟨rest, by simp⟩ (hopened.beginsChar hlow hhigh)
    simp only [List.length_append, List.length_cons, List.length_nil] at hlonger
    omega
  · obtain rfl : part = [] := by simpa using hbegins.resolve_left hpart
    simp [Text.decodeFrom, nextByte, leadByte_of_not_beginsChar hpart]

open Classical in
theorem exists_maximalSubpart {bytes : List UInt8} (hne : bytes ≠ [])
    (hunreadable : ∀ c : Char, ¬String.utf8EncodeChar c <+: bytes) :
    ∃ part rest, bytes = part ++ rest ∧ IsMaximalSubpart part rest := by
  have hlength : 1 ≤ bytes.length := List.length_pos_iff.mpr hne
  let begins (n : Nat) : Prop := BeginsChar (bytes.take n) ∨ n = 1
  have hone : begins 1 := .inr rfl
  obtain ⟨n, hn⟩ : ∃ n, n = Nat.findGreatest begins bytes.length := ⟨_, rfl⟩
  have hpos : 1 ≤ n := hn ▸ Nat.le_findGreatest hlength hone
  have hle : n ≤ bytes.length := hn ▸ Nat.findGreatest_le bytes.length
  have htake : (bytes.take n).length = n := List.length_take_of_le hle
  refine ⟨bytes.take n, bytes.drop n, (List.take_append_drop n bytes).symm, ?_, ?_, ?_, ?_⟩
  · rwa [List.take_append_drop]
  · rw [← List.length_pos_iff, htake]
    exact hpos
  · rw [htake, hn]
    exact Nat.findGreatest_spec hlength hone
  · rw [List.take_append_drop, htake]
    intro front hfront hbegins
    rw [hn]
    refine Nat.le_findGreatest hfront.length_le (.inl ?_)
    rwa [← List.prefix_iff_eq_take.mp hfront]

theorem Decodes.eq_decodeFrom {bytes : List UInt8} {text : List Char} (h : Decodes bytes text)
    (seen : List Char) : decodeFrom seen none bytes = seen.reverse ++ text := by
  induction h generalizing seen with
  | nil => simp [decodeFrom]
  | char c _ ih => rw [decodeFrom_utf8EncodeChar, ih]; simp
  | subpart hpart _ ih => rw [hpart.decodeFrom, ih]; simp

theorem exists_decodes (bytes : List UInt8) : ∃ text, Decodes bytes text := by
  by_cases hnil : bytes = []
  · exact ⟨[], hnil ▸ .nil⟩
  by_cases hchar : ∃ c : Char, String.utf8EncodeChar c <+: bytes
  · obtain ⟨c, rest, hrest⟩ := hchar
    obtain ⟨text, htext⟩ := exists_decodes rest
    exact ⟨c :: text, hrest ▸ .char c htext⟩
  · obtain ⟨part, rest, hrest, hpart⟩ := exists_maximalSubpart hnil (not_exists.mp hchar)
    obtain ⟨text, htext⟩ := exists_decodes rest
    exact ⟨replacement :: text, hrest ▸ .subpart hpart htext⟩
termination_by bytes.length
decreasing_by
  · have hpos := String.length_utf8EncodeChar c
    have := Char.utf8Size_pos c
    rw [← hrest, List.length_append]
    omega
  · have hpos := List.length_pos_iff.mpr hpart.ne_nil
    rw [hrest, List.length_append]
    omega

-- Decoding is the one way to read bytes.
theorem decodes_iff {bytes : List UInt8} {text : List Char} :
    Decodes bytes text ↔ decodeLossy bytes = text := by
  constructor
  · intro h
    exact h.eq_decodeFrom []
  · rintro rfl
    obtain ⟨text, htext⟩ := exists_decodes bytes
    rwa [decodeLossy, htext.eq_decodeFrom []]

-- A character that is cut off by another one, and one that is cut off by the end.
example : decodeLossy [0xE2, 0x82, 0x28, 0xF0, 0x9F, 0x92] = [replacement, '(', replacement] := by
  decide

end TypeAtlas.Text
