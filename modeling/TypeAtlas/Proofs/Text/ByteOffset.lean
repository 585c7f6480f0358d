import Mathlib.Tactic.ByContra
import TypeAtlas.Proofs.Text.Utf8

namespace TypeAtlas.Text

@[simp] theorem byteSize_nil : byteSize [] = 0 := rfl

@[simp] theorem byteSize_cons (c : Char) (text : List Char) :
    byteSize (c :: text) = c.utf8Size + byteSize text := by
  simp only [byteSize_eq_sum, List.map_cons, List.sum_cons]

@[simp] theorem byteSize_append (front back : List Char) :
    byteSize (front ++ back) = byteSize front + byteSize back := by
  simp only [byteSize_eq_sum, List.map_append, List.sum_append]

theorem encode_cons (c : Char) (text : List Char) :
    encode (c :: text) = String.utf8EncodeChar c ++ encode text :=
  List.flatMap_cons

theorem encode_append (front back : List Char) :
    encode (front ++ back) = encode front ++ encode back :=
  List.flatMap_append

theorem length_encode (text : List Char) : (encode text).length = byteSize text := by
  induction text with
  | nil => rfl
  | cons c text ih =>
      rw [encode_cons, List.length_append, String.length_utf8EncodeChar, ih, byteSize_cons]

-- Dropping bytes leaves what stands behind a front of that many bytes.
theorem dropBytes?_eq_some_iff {offset : Nat} {text rest : List Char} :
    dropBytes? offset text = some rest ↔ ∃ front, text = front ++ rest ∧ byteSize front = offset := by
  fun_induction dropBytes? offset text with
  | case1 text =>
      constructor
      · rintro ⟨⟩
        exact ⟨[], rfl, rfl⟩
      · rintro ⟨front, rfl, hfront⟩
        cases front with
        | nil => rfl
        | cons c front =>
            have hpos := Char.utf8Size_pos c
            rw [byteSize_cons] at hfront
            omega
  | case2 n =>
      constructor
      · rintro ⟨⟩
      · rintro ⟨front, htext, hfront⟩
        rw [(List.append_eq_nil_iff.mp htext.symm).1] at hfront
        cases hfront
  | case3 n c text hfits ih =>
      rw [ih]
      clear ih
      constructor
      · rintro ⟨front, rfl, hfront⟩
        refine ⟨c :: front, rfl, ?_⟩
        rw [byteSize_cons]
        omega
      · rintro ⟨front, htext, hfront⟩
        cases front with
        | nil => cases hfront
        | cons d front =>
            obtain ⟨rfl, rfl⟩ := List.cons.inj htext
            rw [byteSize_cons] at hfront
            exact ⟨front, rfl, by omega⟩
  | case4 n c text hshort =>
      constructor
      · rintro ⟨⟩
      · rintro ⟨front, htext, hfront⟩
        cases front with
        | nil => cases hfront
        | cons d front =>
            obtain ⟨rfl, -⟩ := List.cons.inj htext
            rw [byteSize_cons] at hfront
            omega

-- A byte below 0x80 is a character of its own.
theorem eq_of_getElem?_utf8EncodeChar {c d : Char} {i : Nat} (hc : c.toNat < 0x80)
    (h : (String.utf8EncodeChar d)[i]? = some c.toUInt8) : i = 0 ∧ d = c := by
  have hmem := List.mem_of_getElem? h
  have hcode : c.toUInt8.toNat = c.toNat := by
    have hbyte : c.toUInt8.toNat = c.toNat % 256 := UInt32.toNat_toUInt8 c.val
    omega
  have hsize : d.val.toNat ≤ 0x7f := by
    by_contra hlarge
    have hhigh : ∀ b ∈ String.utf8EncodeChar d, 0x80 ≤ b.toNat := by
      unfold String.utf8EncodeChar
      generalize d.val.toNat = v at hlarge
      dsimp only
      rw [if_neg hlarge]
      split
      · simp; omega
      · split
        · simp; omega
        · simp; omega
    have hbyte := hhigh _ hmem
    rw [hcode] at hbyte
    omega
  have hd : String.utf8EncodeChar d = [UInt8.ofNat d.val.toNat] := if_pos hsize
  rw [hd, List.mem_singleton, ← UInt8.toNat_inj, hcode, UInt8.toNat_ofNat'] at hmem
  rw [hd] at h
  refine ⟨?_, ?_⟩
  · have hlt := (List.getElem?_eq_some_iff.mp h).1
    simpa using hlt
  · apply Char.toNat_inj.mp
    have hval : d.toNat = d.val.toNat := rfl
    omega

-- Where the bytes of a text have a byte below 0x80, the text has the character with that code.
theorem exists_of_getElem?_encode {text : List Char} {offset : Nat} {c : Char} (hc : c.toNat < 0x80)
    (h : (encode text)[offset]? = some c.toUInt8) :
    ∃ front rest, text = front ++ c :: rest ∧ byteSize front = offset := by
  induction text generalizing offset with
  | nil => cases h
  | cons d text ih =>
      rw [encode_cons] at h
      by_cases hd : offset < d.utf8Size
      · rw [List.getElem?_append_left (by rwa [String.length_utf8EncodeChar])] at h
        obtain ⟨rfl, rfl⟩ := eq_of_getElem?_utf8EncodeChar hc h
        exact ⟨[], text, rfl, rfl⟩
      · rw [List.getElem?_append_right (by rw [String.length_utf8EncodeChar]; omega),
          String.length_utf8EncodeChar] at h
        obtain ⟨front, rest, rfl, hfront⟩ := ih h
        refine ⟨d :: front, rest, rfl, ?_⟩
        rw [byteSize_cons]
        omega

theorem decodeFrom_seen (seen : List Char) (opened : Option Partial) (bytes : List UInt8) :
    decodeFrom seen opened bytes = seen.reverse ++ decodeFrom [] opened bytes := by
  induction bytes generalizing seen opened with
  | nil => cases opened <;> simp [decodeFrom]
  | cons b bytes ih =>
      simp only [decodeFrom, List.append_nil]
      rw [ih, ih (nextByte opened b).1.reverse]
      simp

-- A text whose bytes begin with those of another one begins with the other one.
theorem prefix_of_encode_prefix {front text : List Char} (h : encode front <+: encode text) :
    front <+: text := by
  obtain ⟨bytes, hbytes⟩ := h
  have hdecode : decodeFrom [] none (encode front ++ bytes) = text := by
    rw [hbytes]
    exact decodeLossy_encode text
  have happend (seen : List Char) : decodeFrom seen none (encode front ++ bytes) =
      decodeFrom (front.reverse ++ seen) none bytes := by
    clear hdecode hbytes
    induction front generalizing seen with
    | nil => rfl
    | cons c front ih =>
        rw [encode_cons, List.append_assoc, decodeFrom_utf8EncodeChar, ih]
        simp
  rw [happend, decodeFrom_seen] at hdecode
  simp only [List.append_nil, List.reverse_reverse] at hdecode
  exact ⟨_, hdecode⟩

-- Two texts that have the same bytes from one offset to another, both included.
def SameBytes (first last : Nat) (text other : List Char) : Prop :=
  ∀ i, first ≤ i → i ≤ last → (encode other)[i]? = (encode text)[i]?

theorem utf8Size_of_ascii {c : Char} (hc : c.toNat < 0x80) : c.utf8Size = 1 := by
  rw [Char.utf8Size_eq_one_iff, UInt32.le_iff_toNat_le]
  have hval : c.toNat = c.val.toNat := rfl
  have hmax : (127 : UInt32).toNat = 127 := rfl
  omega

theorem encode_of_ascii {c : Char} (hc : c.toNat < 0x80) (rest : List Char) :
    encode (c :: rest) = c.toUInt8 :: encode rest := by
  rw [encode_cons, String.utf8EncodeChar_eq_singleton (utf8Size_of_ascii hc)]
  rfl

theorem getElem?_encode_append {c : Char} (hc : c.toNat < 0x80) (front rest : List Char) :
    (encode (front ++ c :: rest))[byteSize front]? = some c.toUInt8 := by
  rw [encode_append, List.getElem?_append_right (Nat.le_of_eq (length_encode front)), length_encode,
    Nat.sub_self, encode_of_ascii hc]
  rfl

-- A stretch of a text that begins with a character of one byte stands in every text that has the same
-- bytes there.
theorem SameBytes.exists_middle {front middle back other : List Char} {c : Char} {last : Nat}
    (hc : c.toNat < 0x80) (hlast : byteSize front + byteSize (c :: middle) ≤ last + 1)
    (h : SameBytes (byteSize front) last (front ++ (c :: middle ++ back)) other) :
    ∃ front' back', other = front' ++ (c :: middle ++ back') ∧ byteSize front' = byteSize front := by
  have hsame {i : Nat} (hi : i < byteSize (c :: middle)) :
      (encode other)[byteSize front + i]? = (encode (c :: middle))[i]? := by
    rw [h _ (by omega) (by omega), encode_append,
      List.getElem?_append_right (by rw [length_encode]; omega), length_encode,
      Nat.add_sub_cancel_left, encode_append,
      List.getElem?_append_left (by rwa [length_encode])]
  have hfirst : (encode other)[byteSize front]? = some c.toUInt8 := by
    have hpos := Char.utf8Size_pos c
    have hzero : 0 < byteSize (c :: middle) := by
      rw [byteSize_cons]
      omega
    have hbyte := hsame hzero
    rwa [encode_of_ascii hc] at hbyte
  obtain ⟨front', rest, rfl, hfront⟩ := exists_of_getElem?_encode hc hfirst
  have hprefix : encode (c :: middle) <+: encode (c :: rest) := by
    rw [List.prefix_iff_getElem?]
    intro i hi
    rw [length_encode] at hi
    have hbyte := hsame hi
    rw [encode_append, ← hfront, List.getElem?_append_right (by rw [length_encode]; omega),
      length_encode, Nat.add_sub_cancel_left] at hbyte
    rw [hbyte, List.getElem?_eq_getElem]
  obtain ⟨back', hback⟩ := prefix_of_encode_prefix hprefix
  exact ⟨front', back', by rw [hback], hfront⟩

end TypeAtlas.Text
