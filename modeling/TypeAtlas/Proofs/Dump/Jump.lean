import TypeAtlas.Proofs.Dump.Literal
import TypeAtlas.Proofs.Text.BytePlace

namespace TypeAtlas.Dump

open Text

-- What would keep a reading of bytes from a result.
inductive Fault
  -- A byte is asked for that is not there.
  | outside
  -- A depth of zero is to become less.
  | belowZero
  -- A slice does not run from one character boundary to a later one.
  | splitsCharacter
  deriving DecidableEq, Repr

-- The first line break from a place on, or the end.
def lineEnd (bytes : List UInt8) (i : Nat) : Except Fault Nat :=
  if i ≤ bytes.length then .ok (i + (bytes.drop i).findIdx (· == '\n'.toUInt8))
  else .error .outside

def commentEndFrom (bytes : List UInt8) (i : Nat) : Nat :=
  if i + 1 < bytes.length then
    if bytes[i]? = some '*'.toUInt8 ∧ bytes[i + 1]? = some '/'.toUInt8 then i + 2
    else commentEndFrom bytes (i + 1)
  else bytes.length
termination_by bytes.length - i

-- The place behind the block comment that begins at a place.
def blockCommentEnd (bytes : List UInt8) (i : Nat) : Nat :=
  commentEndFrom bytes (i + 2)

def literalEndFrom (bytes : List UInt8) (quote : UInt8) (i : Nat) : Nat :=
  if i < bytes.length then
    if bytes[i]? = some '\\'.toUInt8 then literalEndFrom bytes quote (i + 2)
    else if bytes[i]? = some '\n'.toUInt8 then i
    else if bytes[i]? = some quote then i + 1
    else literalEndFrom bytes quote (i + 1)
  else bytes.length
termination_by bytes.length - i

-- The place behind the literal whose quote stands at a place.
def literalEnd (bytes : List UInt8) (i : Nat) : Except Fault Nat :=
  match bytes[i]? with
  | some quote => .ok (literalEndFrom bytes quote (i + 1))
  | none => .error .outside

section

variable (bytes : List UInt8)

theorem commentEndFrom_bounds {i : Nat} (h : i ≤ bytes.length) :
    i ≤ commentEndFrom bytes i ∧ commentEndFrom bytes i ≤ bytes.length := by
  fun_induction commentEndFrom bytes i with
  | case1 i hlt hends => omega
  | case2 i hlt hends ih =>
      have hnext := ih (by omega)
      omega
  | case3 i hend => omega

theorem literalEndFrom_past {i : Nat} (quote : UInt8) (h : bytes.length ≤ i) :
    literalEndFrom bytes quote i = bytes.length := by
  rw [literalEndFrom, if_neg (by omega)]

-- An escape that the end of the bytes cuts off leads past the end, and the literal then ends there.
theorem literalEndFrom_bounds (quote : UInt8) {i : Nat} (h : i ≤ bytes.length) :
    i ≤ literalEndFrom bytes quote i ∧ literalEndFrom bytes quote i ≤ bytes.length := by
  fun_induction literalEndFrom bytes quote i with
  | case1 i hlt hescape ih =>
      by_cases hcut : i + 2 ≤ bytes.length
      · have hnext := ih hcut
        omega
      · rw [literalEndFrom_past bytes quote (by omega)]
        omega
  | case2 i hlt hescape hbreak => omega
  | case3 i hlt hescape hbreak hquote => omega
  | case4 i hlt hescape hbreak hquote ih =>
      have hnext := ih (by omega)
      omega
  | case5 i hend => omega

-- The jumps go forward from where they are made, and no further than the end.
structure JumpsForward : Prop where
  line : ∀ i, bytes[i]? = some '/'.toUInt8 →
    ∃ stop, lineEnd bytes i = .ok stop ∧ i < stop ∧ stop ≤ bytes.length
  comment : ∀ i, bytes[i]? = some '/'.toUInt8 → bytes[i + 1]? = some '*'.toUInt8 →
    i < blockCommentEnd bytes i ∧ blockCommentEnd bytes i ≤ bytes.length
  literal : ∀ i, i < bytes.length →
    ∃ stop, literalEnd bytes i = .ok stop ∧ i < stop ∧ stop ≤ bytes.length

theorem jumpsForward : JumpsForward bytes where
  line i h := by
    obtain ⟨hlt, hbyte⟩ := List.getElem?_eq_some_iff.mp h
    refine ⟨_, if_pos (Nat.le_of_lt hlt), ?_, ?_⟩
    · have hslash : ('/'.toUInt8 == '\n'.toUInt8) = false := by decide
      rw [List.drop_eq_getElem_cons hlt, hbyte, List.findIdx_cons, hslash]
      exact Nat.lt_add_of_pos_right (Nat.succ_pos _)
    · have hfound : (bytes.drop i).findIdx (· == '\n'.toUInt8) ≤ bytes.length - i := by
        rw [← List.length_drop]
        exact List.findIdx_le_length
      omega
  comment i _ h := by
    have hlt := (List.getElem?_eq_some_iff.mp h).1
    have hbounds := commentEndFrom_bounds bytes (i := i + 2) hlt
    rw [blockCommentEnd]
    omega
  literal i h := by
    have hbounds := literalEndFrom_bounds bytes bytes[i] (i := i + 1) h
    refine ⟨literalEndFrom bytes bytes[i] (i + 1), ?_, ?_, hbounds.2⟩
    · rw [literalEnd, List.getElem?_eq_getElem h]
    · omega

end

theorem ascii_of_isQuote {quote : Char} (h : isQuote quote = true) : quote.toNat < 0x80 := by
  simp only [isQuote, Bool.or_eq_true, beq_iff_eq] at h
  rcases h with rfl | rfl
  · decide
  · decide

-- A jump to the end of a line comes down at the first line break of the text.
theorem findIdx_encode (text : List Char) :
    (encode text).findIdx (· == '\n'.toUInt8) = byteSize (text.takeWhile (· != '\n')) := by
  induction text with
  | nil => rfl
  | cons c text ih =>
      by_cases hc : c = '\n'
      · subst hc
        rw [encode_of_ascii (by decide), List.findIdx_cons, List.takeWhile_cons]
        rfl
      · have hnone : ∀ b ∈ String.utf8EncodeChar c, (b == '\n'.toUInt8) = false := by
          intro b hb
          obtain ⟨k, hk⟩ := List.getElem?_of_mem hb
          apply beq_false_of_ne
          rintro rfl
          exact hc (eq_of_getElem?_utf8EncodeChar (by decide) hk).2
        have hall := List.findIdx_eq_length.mpr hnone
        have hgoes : (c != '\n') = true := bne_iff_ne.mpr hc
        rw [encode_cons, List.findIdx_append, if_neg (Nat.not_lt_of_le (Nat.le_of_eq hall.symm)), ih,
          String.length_utf8EncodeChar, List.takeWhile_cons, if_pos hgoes, byteSize_cons,
          Nat.add_comm]

section

variable {bytes : List UInt8} {i : Nat} {text : List Char}

theorem lineEnd_of_stands (h : Stands bytes i text) :
    lineEnd bytes i = .ok (i + byteSize (text.takeWhile (· != '\n'))) := by
  have hlength := h.length_eq
  rw [lineEnd, if_pos (by omega), h.drop_eq, findIdx_encode]

theorem passes_commentEndFrom (bytes : List UInt8) : Passes bytes (commentEndFrom bytes) := by
  intro j b hb hhigh
  have hlt := (List.getElem?_eq_some_iff.mp hb).1
  have hstar := ne_of_high (d := '*') hb hhigh (by decide)
  rw [commentEndFrom]
  by_cases hlast : j + 1 < bytes.length
  · rw [if_pos hlast, if_neg fun hpair => hstar hpair.1]
  · rw [if_neg hlast, commentEndFrom, if_neg (by omega)]

theorem commentEndFrom_of_stands (h : Stands bytes i text) :
    commentEndFrom bytes i = i + byteSize (cutBlockComment text).1 := by
  fun_induction cutBlockComment text generalizing i with
  | case1 =>
      have hend := h.length_eq_of_nil
      rw [commentEndFrom, if_neg (by omega)]
      exact hend
  | case2 rest =>
      have hlength := h.length_eq
      have hsize : byteSize ('*' :: '/' :: rest) = 1 + (1 + byteSize rest) := by
        rw [byteSize_cons, byteSize_cons, utf8Size_of_ascii (by decide),
          utf8Size_of_ascii (by decide)]
      have hends := (h.two_bytes?_iff (d := '*') (e := '/') (by decide) (by decide)).mpr
        (List.prefix_append ['*', '/'] rest)
      rw [commentEndFrom, if_pos (by omega), if_pos hends]
      rfl
  | case3 c rest hgoes ih =>
      have hrest := ih h.next
      have hpass := h.pass_first (passes_commentEndFrom bytes)
      have hlt := h.lt
      rw [byteSize_cons, ← Nat.add_assoc, ← hrest, ← hpass, commentEndFrom]
      by_cases hlast : i + 1 < bytes.length
      · have hopen : ¬['*', '/'] <+: c :: rest := not_prefix_pair hgoes
        rw [if_pos hlast, if_neg ((h.two_bytes?_iff (by decide) (by decide)).not.mpr hopen)]
      · rw [if_neg hlast, commentEndFrom, if_neg (by omega)]

theorem passes_literalEndFrom (bytes : List UInt8) {quote : Char} (hquote : isQuote quote = true) :
    Passes bytes (literalEndFrom bytes quote.toUInt8) := by
  intro j b hb hhigh
  have hbackslash := ne_of_high (d := '\\') hb hhigh (by decide)
  have hbreak := ne_of_high (d := '\n') hb hhigh (by decide)
  have hend := ne_of_high hb hhigh (ascii_of_isQuote hquote)
  have hlt := (List.getElem?_eq_some_iff.mp hb).1
  rw [literalEndFrom, if_pos hlt, if_neg hbackslash, if_neg hbreak, if_neg hend]

theorem literalEndFrom_cons {c quote : Char} (hquote : isQuote quote = true)
    (h : Stands bytes i (c :: text)) :
    literalEndFrom bytes quote.toUInt8 i =
      if c = '\\' then literalEndFrom bytes quote.toUInt8 (i + 2)
      else if c = '\n' then i
      else if c = quote then i + 1
      else literalEndFrom bytes quote.toUInt8 (i + 1) := by
  have hbackslash : ('\\' : Char).toNat < 0x80 := by decide
  have hbreak : ('\n' : Char).toNat < 0x80 := by decide
  rw [literalEndFrom, if_pos h.lt]
  simp only [h.byte_iff hbackslash, h.byte_iff hbreak, h.byte_iff (ascii_of_isQuote hquote)]

-- The character behind a backslash may take several bytes. The jump is then made into the middle of it,
-- and goes on behind it all the same.
theorem literalEndFrom_of_stands {quote : Char} (hquote : isQuote quote = true)
    (h : Stands bytes i text) :
    literalEndFrom bytes quote.toUInt8 i = i + byteSize (cutLiteral quote text).1 := by
  have hpasses := passes_literalEndFrom bytes hquote
  fun_induction cutLiteral quote text generalizing i with
  | case1 =>
      have hlength := h.length_eq_of_nil
      rw [literalEndFrom_past bytes _ (Nat.le_of_eq hlength), hlength]
      rfl
  | case2 c rest ih =>
      have hescaped : Stands bytes (i + 1) (c :: rest) := h.next
      have hrest := ih hescaped.next
      have hsize : ('\\' : Char).utf8Size = 1 := utf8Size_of_ascii (by decide)
      rw [literalEndFrom_cons hquote h, if_pos rfl, hescaped.pass_first hpasses, hrest, byteSize_cons,
        byteSize_cons, hsize]
      omega
  | case3 rest hescape =>
      rw [literalEndFrom_cons hquote h, if_neg (by decide), if_pos rfl]
      rfl
  | case4 rest hescape hbreak =>
      have hbackslash : quote ≠ '\\' := ne_of_isQuote hquote rfl
      rw [literalEndFrom_cons hquote h, if_neg hbackslash, if_neg hbreak, if_pos rfl, byteSize_cons,
        utf8Size_of_ascii (ascii_of_isQuote hquote)]
      rfl
  | case5 c rest hescape hbreak hend ih =>
      have hrest := ih h.next
      rw [literalEndFrom_cons hquote h, byteSize_cons, ← Nat.add_assoc, ← hrest]
      by_cases hc : c = '\\'
      · -- a backslash that ends the text
        cases rest with
        | nil =>
            have hlength := h.next.length_eq_of_nil
            have hsize : c.utf8Size = 1 := utf8Size_of_ascii (hc ▸ by decide)
            rw [hsize] at hlength
            rw [if_pos hc, hsize, literalEndFrom_past bytes _ (by omega),
              literalEndFrom_past bytes _ (by omega)]
        | cons d rest => exact (hescape d rest hc rfl).elim
      · rw [if_neg hc, if_neg hbreak, if_neg hend, h.pass_first hpasses]

end

end TypeAtlas.Dump
