import Mathlib.Tactic.SplitIfs
import TypeAtlas.Proofs.Text.Utf8

namespace TypeAtlas.Text

-- The bytes of two characters differ, and where they first do, as the characters do.
theorem utf8EncodeChar_append_lt {c d : Char} (h : c < d) (x y : List UInt8) :
    String.utf8EncodeChar c ++ x < String.utf8EncodeChar d ++ y := by
  have hlt : c.val.toNat < d.val.toNat := h
  have hvalid : d.val.toNat < 0xD800 ∨ 0xDFFF < d.val.toNat ∧ d.val.toNat < 0x110000 := d.valid
  unfold String.utf8EncodeChar
  generalize c.val.toNat = v at hlt
  generalize d.val.toNat = w at hlt hvalid
  dsimp only
  -- one case for each two numbers of bytes
  split_ifs
  all_goals
    simp (disch := omega) only [List.cons_append, List.nil_append, List.cons_lt_cons_iff,
      UInt8.lt_iff_toNat_lt, ← UInt8.toNat_inj, UInt8.toNat_ofNat', Nat.mod_eq_of_lt]
    omega

theorem encode_lt_encode {a b : List Char} (h : a < b) : encode a < encode b := by
  induction h with
  | @nil c rest =>
      obtain ⟨b, bytes, hbytes⟩ := List.exists_cons_of_ne_nil (String.utf8EncodeChar_ne_nil (c := c))
      have hcons : encode (c :: rest) = b :: (bytes ++ encode rest) := by
        rw [encode, List.flatMap_cons, hbytes, List.cons_append]
        rfl
      rw [hcons]
      exact List.nil_lt_cons b _
  | cons _ ih => exact List.append_left_lt ih
  | rel hlt => exact utf8EncodeChar_append_lt hlt _ _

end TypeAtlas.Text
