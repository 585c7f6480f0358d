import TypeAtlas.Proofs.Text.ByteOffset

namespace TypeAtlas.Text

-- The bytes of a character behind its first one are none that a character of one byte has.
theorem high_of_getElem?_utf8EncodeChar {c : Char} {k : Nat} {b : UInt8} (hk : 0 < k)
    (h : (String.utf8EncodeChar c)[k]? = some b) : 0x80 ≤ b := by
  rw [UInt8.le_iff_toNat_le]
  by_contra hlow
  have hb : b.toNat < 0x80 := Nat.lt_of_not_le hlow
  have hvalid : ∀ n < 0x80, (Char.ofNat n).toNat = n ∧ (Char.ofNat n).toUInt8 = UInt8.ofNat n := by
    decide +kernel
  obtain ⟨hcode, hbyte⟩ := hvalid b.toNat hb
  rw [UInt8.ofNat_toNat] at hbyte
  rw [← hbyte] at h
  have hzero := (eq_of_getElem?_utf8EncodeChar (by rwa [hcode]) h).1
  omega

-- The first byte of a character continues none before it.
theorem first_utf8EncodeChar (c : Char) :
    ∃ b more, String.utf8EncodeChar c = b :: more ∧ (b < 0x80 ∨ 0xC0 ≤ b) := by
  have hhigh {n : Nat} (hlow : 0xC0 ≤ n) (hn : n < 0x100) : (0xC0 : UInt8) ≤ UInt8.ofNat n := by
    rw [UInt8.le_iff_toNat_le, UInt8.toNat_ofNat_of_lt' hn]
    exact hlow
  unfold String.utf8EncodeChar
  generalize c.val.toNat = v
  dsimp only
  split
  · rename_i hsmall
    have hfits : v < UInt8.size := Nat.lt_of_le_of_lt hsmall (by decide)
    refine ⟨_, _, rfl, .inl ?_⟩
    rw [UInt8.lt_iff_toNat_lt, UInt8.toNat_ofNat_of_lt' hfits]
    exact Nat.lt_succ_of_le hsmall
  split
  · exact ⟨_, _, rfl, .inr (hhigh (by omega) (by omega))⟩
  split
  · exact ⟨_, _, rfl, .inr (hhigh (by omega) (by omega))⟩
  · exact ⟨_, _, rfl, .inr (hhigh (by omega) (by omega))⟩

theorem not_prefix_pair {c d e : Char} {rest : List Char}
    (h : ∀ tail, c = d → rest = e :: tail → False) : ¬[d, e] <+: c :: rest := by
  rintro ⟨more, hmore⟩
  obtain ⟨hc, hrest⟩ := List.cons.inj hmore
  exact h more hc.symm hrest.symm

theorem ne_of_high {bytes : List UInt8} {i : Nat} {b : UInt8} {d : Char} (hb : bytes[i]? = some b)
    (hhigh : 0x80 ≤ b) (hd : d.toNat < 0x80) : bytes[i]? ≠ some d.toUInt8 := by
  intro hbyte
  obtain rfl := Option.some.inj (hb.symm.trans hbyte)
  rw [UInt8.le_iff_toNat_le] at hhigh
  have hcode : d.toUInt8.toNat = d.toNat % 256 := UInt32.toNat_toUInt8 d.val
  have hlow : (0x80 : UInt8).toNat = 0x80 := rfl
  omega

-- That bytes end with those of a text, which begins at a place.
def Stands (bytes : List UInt8) (i : Nat) (text : List Char) : Prop :=
  ∃ front, bytes = front ++ encode text ∧ front.length = i

theorem stands_encode (front text : List Char) :
    Stands (encode (front ++ text)) (byteSize front) text :=
  ⟨encode front, encode_append front text, length_encode front⟩

-- A reader of places that passes over every byte that is no character of its own.
def Passes {β : Type} (bytes : List UInt8) (read : Nat → β) : Prop :=
  ∀ j b, bytes[j]? = some b → 0x80 ≤ b → read j = read (j + 1)

namespace Stands

variable {bytes : List UInt8} {i : Nat} {c : Char} {text : List Char}

theorem length_eq (h : Stands bytes i text) : bytes.length = i + byteSize text := by
  obtain ⟨front, rfl, rfl⟩ := h
  rw [List.length_append, length_encode]

theorem length_eq_of_nil (h : Stands bytes i []) : bytes.length = i :=
  h.length_eq

theorem drop_eq (h : Stands bytes i text) : bytes.drop i = encode text := by
  obtain ⟨front, rfl, rfl⟩ := h
  exact List.drop_left

theorem lt (h : Stands bytes i (c :: text)) : i < bytes.length := by
  have hlength := h.length_eq
  have hpos := Char.utf8Size_pos c
  rw [byteSize_cons] at hlength
  omega

theorem append {front : List Char} (h : Stands bytes i (front ++ text)) :
    Stands bytes (i + byteSize front) text := by
  obtain ⟨before, rfl, rfl⟩ := h
  refine ⟨before ++ encode front, ?_, ?_⟩
  · rw [encode_append, List.append_assoc]
  · rw [List.length_append, length_encode]

theorem next (h : Stands bytes i (c :: text)) : Stands bytes (i + c.utf8Size) text := by
  have hfront : Stands bytes i ([c] ++ text) := h
  simpa using hfront.append

theorem getElem? (h : Stands bytes i text) (k : Nat) : bytes[i + k]? = (encode text)[k]? := by
  obtain ⟨front, rfl, rfl⟩ := h
  rw [List.getElem?_append_right (Nat.le_add_right _ _), Nat.add_sub_cancel_left]

-- The byte at a place tells the character there, as far as that takes one byte.
theorem byte_iff (h : Stands bytes i (c :: text)) {d : Char} (hd : d.toNat < 0x80) :
    bytes[i]? = some d.toUInt8 ↔ c = d := by
  have hfirst := h.getElem? 0
  rw [Nat.add_zero, encode_cons] at hfirst
  constructor
  · intro hbyte
    have hlt : 0 < (String.utf8EncodeChar c).length := by
      rw [String.length_utf8EncodeChar]
      exact Char.utf8Size_pos c
    rw [hbyte, List.getElem?_append_left hlt] at hfirst
    exact (eq_of_getElem?_utf8EncodeChar hd hfirst.symm).2
  · rintro rfl
    rw [hfirst, ← encode_cons, encode_of_ascii hd]
    rfl

theorem byte?_iff (h : Stands bytes i text) {d : Char} (hd : d.toNat < 0x80) :
    bytes[i]? = some d.toUInt8 ↔ text.head? = some d := by
  cases text with
  | nil =>
      have hend := h.getElem? 0
      rw [Nat.add_zero] at hend
      rw [hend]
      simp [encode]
  | cons c text => rw [h.byte_iff hd, List.head?_cons, Option.some_inj]

-- Two bytes in a row tell two characters in a row.
theorem two_bytes?_iff (h : Stands bytes i text) {d e : Char} (hd : d.toNat < 0x80)
    (he : e.toNat < 0x80) :
    bytes[i]? = some d.toUInt8 ∧ bytes[i + 1]? = some e.toUInt8 ↔ [d, e] <+: text := by
  rw [h.byte?_iff hd]
  cases text with
  | nil => simp
  | cons c text =>
      rw [List.head?_cons, Option.some_inj, List.cons_prefix_cons, eq_comm]
      refine and_congr_right ?_
      rintro rfl
      have hnext := h.next
      rw [utf8Size_of_ascii hd] at hnext
      rw [hnext.byte?_iff he]
      cases text with
      | nil => simp
      | cons c text => simp [eq_comm]

-- Within a character nothing is read that is a character.
theorem pass {β : Type} {read : Nat → β} (h : Stands bytes i (c :: text))
    (hread : Passes bytes read) {k : Nat} (hk : 0 < k) (hsize : k ≤ c.utf8Size) :
    read (i + k) = read (i + c.utf8Size) := by
  obtain ⟨left, hleft⟩ := Nat.exists_eq_add_of_le hsize
  induction left generalizing k with
  | zero => rw [hleft, Nat.add_zero]
  | succ left ih =>
      have hlt : k < (String.utf8EncodeChar c).length := by
        rw [String.length_utf8EncodeChar]
        omega
      have hbyte := h.getElem? k
      rw [encode_cons, List.getElem?_append_left hlt] at hbyte
      have hsome := List.getElem?_eq_getElem hlt
      rw [hread _ _ (hbyte.trans hsome) (high_of_getElem?_utf8EncodeChar hk hsome)]
      exact ih (Nat.succ_pos k) (by omega) (by omega)

theorem pass_first {β : Type} {read : Nat → β} (h : Stands bytes i (c :: text))
    (hread : Passes bytes read) : read (i + 1) = read (i + c.utf8Size) :=
  h.pass hread Nat.one_pos (Char.utf8Size_pos c)

end Stands

-- The text from the first character on that begins at a byte offset or behind it.
def charsFrom : Nat → List Char → List Char
  | 0, text => text
  | _ + 1, [] => []
  | n + 1, c :: rest => charsFrom (n + 1 - c.utf8Size) rest

theorem charsFrom_of_dropBytes? {offset : Nat} {text rest : List Char}
    (h : dropBytes? offset text = some rest) : charsFrom offset text = rest := by
  fun_induction dropBytes? offset text with
  | case1 text =>
      cases h
      cases rest <;> rfl
  | case2 => cases h
  | case3 n c text hfits ih => exact ih h
  | case4 => cases h

-- From any place on, within a character or past the end, a reading goes on where a character begins.
theorem Stands.exists_place {bytes : List UInt8} {i : Nat} {text : List Char}
    (h : Stands bytes i text) (n : Nat) :
    ∃ j, Stands bytes j (charsFrom n text) ∧
      ∀ {β : Type} {read : Nat → β}, Passes bytes read →
        (∀ k, bytes.length ≤ k → read k = read bytes.length) → read (i + n) = read j := by
  fun_induction charsFrom n text generalizing i with
  | case1 text => exact ⟨i, h, fun _ _ => rfl⟩
  | case2 n =>
      refine ⟨i, h, fun _ hend => ?_⟩
      have hlength := h.length_eq_of_nil
      rw [hend _ (by omega), hend i (by omega)]
  | case3 n c rest ih =>
      obtain ⟨j, hj, hplace⟩ := ih h.next
      refine ⟨j, hj, fun hread hend => ?_⟩
      rw [← hplace hread hend]
      by_cases hfits : n + 1 ≤ c.utf8Size
      · rw [h.pass hread (Nat.succ_pos n) hfits, Nat.sub_eq_zero_of_le hfits, Nat.add_zero]
      · congr 1
        omega

end TypeAtlas.Text
