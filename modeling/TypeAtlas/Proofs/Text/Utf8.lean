import Mathlib.Algebra.GroupWithZero.Nat
import TypeAtlas.Text.Utf8

namespace TypeAtlas.Text

private theorem toNat_ofNat_of_lt {n : Nat} (hn : n < 256) : (UInt8.ofNat n).toNat = n := by
  simp only [UInt8.toNat_ofNat']
  omega

-- The byte of a character that takes one.
theorem leadByte_one {n : Nat} (hn : n < 0x80) :
    leadByte (UInt8.ofNat n) = ([Char.ofNat n], none) := by
  have hval := toNat_ofNat_of_lt (show n < 256 by omega)
  have hlt : UInt8.ofNat n < 0x80 := by
    simpa only [UInt8.lt_iff_toNat_lt, hval, UInt8.reduceToNat] using hn
  simp [leadByte, hlt, hval]

-- The first bytes of characters that take two, three and four.
theorem leadByte_two {n : Nat} (hlow : 2 ≤ n) (hhigh : n < 0x20) :
    leadByte (UInt8.ofNat (n + 0xC0)) = ([], some ⟨1, 0x80, 0xBF, n⟩) := by
  have hval := toNat_ofNat_of_lt (show n + 0xC0 < 256 by omega)
  simp only [leadByte, UInt8.lt_iff_toNat_lt, UInt8.le_iff_toNat_le, hval, UInt8.reduceToNat]
  simp [show ¬n + 0xC0 < 0x80 by omega, show 0xC2 ≤ n + 0xC0 by omega,
    show n + 0xC0 ≤ 0xDF by omega]

theorem leadByte_three {n : Nat} (hhigh : n < 0x10) :
    leadByte (UInt8.ofNat (n + 0xE0)) =
      ([], some ⟨2, if n = 0 then 0xA0 else 0x80, if n = 0xD then 0x9F else 0xBF, n⟩) := by
  have hval := toNat_ofNat_of_lt (show n + 0xE0 < 256 by omega)
  simp only [leadByte, UInt8.lt_iff_toNat_lt, UInt8.le_iff_toNat_le, ← UInt8.toNat_inj, hval,
    UInt8.reduceToNat]
  simp [show ¬n + 0xE0 < 0x80 by omega, show ¬n + 0xE0 ≤ 0xDF by omega,
    show n + 0xE0 ≤ 0xEF by omega]

theorem leadByte_four {n : Nat} (hhigh : n < 5) :
    leadByte (UInt8.ofNat (n + 0xF0)) =
      ([], some ⟨3, if n = 0 then 0x90 else 0x80, if n = 4 then 0x8F else 0xBF, n⟩) := by
  have hval := toNat_ofNat_of_lt (show n + 0xF0 < 256 by omega)
  simp only [leadByte, UInt8.lt_iff_toNat_lt, UInt8.le_iff_toNat_le, ← UInt8.toNat_inj, hval,
    UInt8.reduceToNat]
  simp [show ¬n + 0xF0 < 0x80 by omega, show ¬n + 0xF0 ≤ 0xDF by omega,
    show ¬n + 0xF0 ≤ 0xEF by omega, show n + 0xF0 ≤ 0xF4 by omega]

-- A byte in range fills the open character up, and the last one completes it.
theorem decodeFrom_within (seen : List Char) {low high : UInt8} (bits : Nat) {n : Nat}
    (rest : List UInt8) (hn : n < 0x40) (hlow : low.toNat ≤ n + 0x80) (hhigh : n + 0x80 ≤ high.toNat)
    (lacks : Nat) :
    decodeFrom seen (some ⟨lacks + 2, low, high, bits⟩) (UInt8.ofNat (n + 0x80) :: rest) =
      decodeFrom seen (some ⟨lacks + 1, 0x80, 0xBF, bits * 64 + n⟩) rest := by
  have hval := toNat_ofNat_of_lt (show n + 0x80 < 256 by omega)
  generalize UInt8.ofNat (n + 0x80) = b at hval
  simp [decodeFrom, nextByte, UInt8.le_iff_toNat_le, hval, hlow, hhigh]

theorem decodeFrom_last (seen : List Char) {low high : UInt8} (bits : Nat) {n : Nat}
    (rest : List UInt8) (hn : n < 0x40) (hlow : low.toNat ≤ n + 0x80)
    (hhigh : n + 0x80 ≤ high.toNat) :
    decodeFrom seen (some ⟨1, low, high, bits⟩) (UInt8.ofNat (n + 0x80) :: rest) =
      decodeFrom (Char.ofNat (bits * 64 + n) :: seen) none rest := by
  have hval := toNat_ofNat_of_lt (show n + 0x80 < 256 by omega)
  generalize UInt8.ofNat (n + 0x80) = b at hval
  simp [decodeFrom, nextByte, UInt8.le_iff_toNat_le, hval, hlow, hhigh]

theorem decodeFrom_lead {b : UInt8} {p : Partial} (seen : List Char) (rest : List UInt8)
    (h : leadByte b = ([], some p)) :
    decodeFrom seen none (b :: rest) = decodeFrom seen (some p) rest := by
  simp [decodeFrom, nextByte, h]

-- An encoded character is read back, whatever follows it. The bounds on its second byte are those
-- that overlong forms and surrogates would break.
theorem decodeFrom_utf8EncodeChar (seen : List Char) (c : Char) (rest : List UInt8) :
    decodeFrom seen none (String.utf8EncodeChar c ++ rest) = decodeFrom (c :: seen) none rest := by
  have hvalid : c.val.toNat < 0xD800 ∨ 0xDFFF < c.val.toNat ∧ c.val.toNat < 0x110000 := c.valid
  have hchar : Char.ofNat c.val.toNat = c := Char.ofNat_toNat c
  unfold String.utf8EncodeChar
  generalize c.val.toNat = v at hvalid hchar
  -- one case for each number of bytes
  dsimp only
  split
  · simp [decodeFrom, nextByte, leadByte_one (show v < 0x80 by omega), hchar]
  split
  · have hlead := leadByte_two (n := v / 64 % 0x20) (by omega) (by omega)
    have hv : v / 64 % 0x20 * 64 + v % 0x40 = v := by omega
    rw [List.cons_append, decodeFrom_lead _ _ hlead, List.cons_append,
      decodeFrom_last _ _ _ (by omega) (by simp) (by simp; omega), hv, hchar, List.nil_append]
  split
  · have hlead := leadByte_three (n := v / 4096 % 0x10) (by omega)
    have hv : (v / 4096 % 0x10 * 64 + v / 64 % 0x40) * 64 + v % 0x40 = v := by omega
    rw [List.cons_append, decodeFrom_lead _ _ hlead, List.cons_append,
      decodeFrom_within _ _ _ (by omega) (by split <;> simp; omega) (by split <;> simp <;> omega),
      List.cons_append, decodeFrom_last _ _ _ (by omega) (by simp) (by simp; omega), hv, hchar,
      List.nil_append]
  · have hlead := leadByte_four (n := v / 262144 % 0x08) (by omega)
    have hv : ((v / 262144 % 0x08 * 64 + v / 4096 % 0x40) * 64 + v / 64 % 0x40) * 64 + v % 0x40 =
        v := by omega
    rw [List.cons_append, decodeFrom_lead _ _ hlead, List.cons_append,
      decodeFrom_within _ _ _ (by omega) (by split <;> simp; omega) (by split <;> simp <;> omega),
      List.cons_append, decodeFrom_within _ _ _ (by omega) (by simp) (by simp; omega),
      List.cons_append, decodeFrom_last _ _ _ (by omega) (by simp) (by simp; omega), hv, hchar,
      List.nil_append]

theorem decodeFrom_encode (seen text : List Char) :
    decodeFrom seen none (encode text) = seen.reverse ++ text := by
  induction text generalizing seen with
  | nil => simp [encode, decodeFrom]
  | cons c rest ih =>
      have hsplit : encode (c :: rest) = String.utf8EncodeChar c ++ encode rest := rfl
      rw [hsplit, decodeFrom_utf8EncodeChar, ih]
      simp

-- Decoding an encoded text gives it back, leniently and strictly.
theorem decodeLossy_encode (text : List Char) : decodeLossy (encode text) = text := by
  simp [decodeLossy, decodeFrom_encode]

theorem decode?_encode (text : List Char) : decode? (encode text) = some text := by
  simp [decode?, decodeLossy_encode]

theorem decode?_eq_some_iff {bytes : List UInt8} {text : List Char} :
    decode? bytes = some text ↔ bytes = encode text := by
  constructor
  · intro h
    simp only [decode?] at h
    split at h
    · rename_i hencode
      cases h
      exact hencode.symm
    · cases h
  · rintro rfl
    exact decode?_encode text

theorem eq_of_encode_eq {text other : List Char} (h : encode text = encode other) : text = other := by
  have hdecode := congrArg decode? h
  rw [decode?_encode, decode?_encode] at hdecode
  exact Option.some.inj hdecode

theorem byteSize_eq_sum (text : List Char) : byteSize text = (text.map Char.utf8Size).sum := by
  have hfold (size : Nat) : text.foldl (fun size c => size + c.utf8Size) size =
      size + (text.map Char.utf8Size).sum := by
    induction text generalizing size with
    | nil => rfl
    | cons c text ih =>
        rw [List.foldl_cons, ih, List.map_cons, List.sum_cons, Nat.add_assoc]
  rw [byteSize, hfold, Nat.zero_add]

-- Of the fronts of one text, no two take equally many bytes.
theorem eq_of_byteSize_eq {front other text : List Char} (hfront : front <+: text)
    (hother : other <+: text) (h : byteSize front = byteSize other) : front = other := by
  have hnil {front more : List Char} (h : byteSize (front ++ more) = byteSize front) :
      more = [] := by
    simp only [byteSize_eq_sum, List.map_append, List.sum_append] at h
    cases more with
    | nil => rfl
    | cons c more =>
        have hpos := Char.utf8Size_pos c
        simp only [List.map_cons, List.sum_cons] at h
        omega
  rcases List.prefix_or_prefix_of_prefix hfront hother with ⟨more, rfl⟩ | ⟨more, rfl⟩
  · rw [hnil h.symm, List.append_nil]
  · rw [hnil h, List.append_nil]

end TypeAtlas.Text
