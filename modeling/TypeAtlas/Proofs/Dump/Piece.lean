import TypeAtlas.Proofs.Dump.Nesting
import TypeAtlas.Proofs.Text.ByteOffset

namespace TypeAtlas.Dump

open Text

-- A block comment behind the two characters that begin it, and what follows the comment.
def cutBlockComment : List Char → List Char × List Char
  | [] => ([], [])
  | '*' :: '/' :: rest => (['*', '/'], rest)
  | c :: rest => (c :: (cutBlockComment rest).1, (cutBlockComment rest).2)

-- A literal behind its quote, and what follows the literal. The character behind a backslash belongs
-- to the literal, and otherwise a line break ends it.
def cutLiteral (quote : Char) : List Char → List Char × List Char
  | [] => ([], [])
  | '\\' :: c :: rest => ('\\' :: c :: (cutLiteral quote rest).1, (cutLiteral quote rest).2)
  | c :: rest =>
    if c = '\n' then ([], c :: rest)
    else if c = quote then ([c], rest)
    else (c :: (cutLiteral quote rest).1, (cutLiteral quote rest).2)

-- What a text is read as first, a comment, a literal or one character of code, and what follows.
def cutPiece : List Char → List Char × List Char
  | [] => ([], [])
  | '/' :: '/' :: rest =>
    ('/' :: '/' :: rest.takeWhile (· != '\n'), rest.dropWhile (· != '\n'))
  | '/' :: '*' :: rest => ('/' :: '*' :: (cutBlockComment rest).1, (cutBlockComment rest).2)
  | c :: rest =>
    if c = '\x22' || c = '\x27' then (c :: (cutLiteral c rest).1, (cutLiteral c rest).2)
    else ([c], rest)

theorem cutBlockComment_append (text : List Char) :
    (cutBlockComment text).1 ++ (cutBlockComment text).2 = text := by
  fun_induction cutBlockComment text with
  | case1 => rfl
  | case2 rest => rfl
  | case3 c rest _ ih => rw [List.cons_append, ih]

theorem cutLiteral_append (quote : Char) (text : List Char) :
    (cutLiteral quote text).1 ++ (cutLiteral quote text).2 = text := by
  fun_induction cutLiteral quote text with
  | case1 => rfl
  | case2 c rest ih => rw [List.cons_append, List.cons_append, ih]
  | case3 => rfl
  | case4 => rfl
  | case5 c rest _ _ _ ih => rw [List.cons_append, ih]

theorem cutPiece_append (text : List Char) : (cutPiece text).1 ++ (cutPiece text).2 = text := by
  fun_cases cutPiece text with
  | case1 => rfl
  | case2 rest => simp
  | case3 rest => rw [List.cons_append, List.cons_append, cutBlockComment_append]
  | case4 c rest => rw [List.cons_append, cutLiteral_append]
  | case5 => rfl

theorem cutPiece_ne_nil {text : List Char} (h : text ≠ []) : (cutPiece text).1 ≠ [] := by
  fun_cases cutPiece text with
  | case1 => exact absurd rfl h
  | case2 => exact List.cons_ne_nil _ _
  | case3 => exact List.cons_ne_nil _ _
  | case4 => exact List.cons_ne_nil _ _
  | case5 => exact List.cons_ne_nil _ _

theorem cutPiece_length {text : List Char} (h : text ≠ []) :
    (cutPiece text).2.length < text.length := by
  have hlength := congrArg List.length (cutPiece_append text)
  have hpos := List.length_pos_iff.mpr (cutPiece_ne_nil h)
  rw [List.length_append] at hlength
  omega

-- The comments, literals and characters of code that a text is made of.
def pieces : List Char → List (List Char)
  | [] => []
  | c :: rest => (cutPiece (c :: rest)).1 :: pieces (cutPiece (c :: rest)).2
termination_by text => text.length
decreasing_by exact cutPiece_length (List.cons_ne_nil c rest)

-- Nothing of a text is left out, and nothing is taken twice.
theorem flatten_pieces (text : List Char) : (pieces text).flatten = text := by
  fun_induction pieces text with
  | case1 => rfl
  | case2 c rest ih => rw [List.flatten_cons, ih, cutPiece_append]

-- The brace that a piece is, if it is one of code.
def pieceBrace? (piece : List Char) : Option Brace :=
  if piece = ['{'] then some .opening
  else if piece = ['}'] then some .closing
  else none

-- The braces among pieces of a text that stand from a byte offset on, each with its own offset.
def bracesAmong (offset : Nat) : List (List Char) → List (Nat × Brace)
  | [] => []
  | piece :: rest =>
    ((pieceBrace? piece).map (offset, ·)).toList ++ bracesAmong (offset + byteSize piece) rest

-- The braces outside comments and literals, where a text is read as code from a byte offset on.
def bracesFrom (text : List Char) (offset : Nat) : List (Nat × Brace) :=
  match dropBytes? offset text with
  | some rest => bracesAmong offset (pieces rest)
  | none => []

-- The same braces, met character by character.
def counted (offset : Nat) (mode : Mode) : List Char → List (Nat × Brace)
  | [] => []
  | c :: rest =>
    ((mode.brace? c).map (offset, ·)).toList ++ counted (offset + c.utf8Size) (mode.next c) rest

theorem counted_append (offset : Nat) (mode : Mode) (front back : List Char) :
    counted offset mode (front ++ back) =
      counted offset mode front ++ counted (offset + byteSize front) (mode.after front) back := by
  induction front generalizing offset mode with
  | nil => rfl
  | cons c front ih =>
      rw [List.cons_append, counted, counted, ih, List.append_assoc, byteSize_cons, Nat.add_assoc,
        Mode.after_cons]

theorem counted_of_no_brace {mode : Mode} {c : Char} (h : mode.brace? c = none) (offset : Nat)
    (rest : List Char) :
    counted offset mode (c :: rest) = counted (offset + c.utf8Size) (mode.next c) rest := by
  rw [counted, h]
  rfl

-- Behind a slash, or a star, that begins or ends no comment, a text is read as if it were not there.
theorem counted_slash {offset : Nat} {text : List Char} (hslash : ∀ rest, text ≠ '/' :: rest)
    (hstar : ∀ rest, text ≠ '*' :: rest) :
    counted offset .slash text = counted offset .code text := by
  cases text with
  | nil => rfl
  | cons c rest =>
      have hc : c ≠ '/' := fun hc => hslash rest (hc ▸ rfl)
      have hc' : c ≠ '*' := fun hc => hstar rest (hc ▸ rfl)
      have hnext : Mode.slash.next c = Mode.code.next c := by
        simp only [Mode.next, if_neg hc, if_neg hc']
      have hbrace : Mode.slash.brace? c = Mode.code.brace? c := rfl
      rw [counted, counted, hnext, hbrace]

theorem counted_star {offset : Nat} {text : List Char} (hslash : ∀ rest, text ≠ '/' :: rest) :
    counted offset .star text = counted offset .blockComment text := by
  cases text with
  | nil => rfl
  | cons c rest =>
      have hc : c ≠ '/' := fun hc => hslash rest (hc ▸ rfl)
      have hnext : Mode.star.next c = Mode.blockComment.next c := by
        simp only [Mode.next, if_neg hc]
      rw [counted_of_no_brace rfl, counted_of_no_brace rfl, hnext]

theorem counted_lineComment (offset : Nat) (text : List Char) :
    counted offset .lineComment text =
      counted (offset + byteSize (text.takeWhile (· != '\n'))) .code (text.dropWhile (· != '\n')) := by
  induction text generalizing offset with
  | nil => rfl
  | cons c rest ih =>
      rw [counted_of_no_brace rfl, Mode.next]
      by_cases hc : c = '\n'
      · subst hc
        rw [if_pos rfl]
        rfl
      · have hgoes : (c != '\n') = true := bne_iff_ne.mpr hc
        simp only [if_neg hc, ih, List.takeWhile_cons, List.dropWhile_cons, hgoes, if_true,
          byteSize_cons, Nat.add_assoc]

theorem counted_blockComment (offset : Nat) (text : List Char) :
    counted offset .blockComment text =
      counted (offset + byteSize (cutBlockComment text).1) .code (cutBlockComment text).2 := by
  fun_induction cutBlockComment text generalizing offset with
  | case1 => rfl
  | case2 rest => rfl
  | case3 c rest hends ih =>
      rw [counted_of_no_brace rfl, byteSize_cons, ← Nat.add_assoc, ← ih, Mode.next]
      split
      · rename_i hc
        exact counted_star fun tail htail => hends tail hc htail
      · rfl

theorem counted_literal (offset : Nat) {quote : Char} (hquote : quote ≠ '\\') (text : List Char) :
    counted offset (.literal quote) text =
      counted (offset + byteSize (cutLiteral quote text).1) .code (cutLiteral quote text).2 := by
  fun_induction cutLiteral quote text generalizing offset with
  | case1 => rfl
  | case2 c rest ih =>
      have hnext : (Mode.literal quote).next '\\' = .escape quote := by simp only [Mode.next, if_true]
      rw [counted_of_no_brace rfl, hnext, counted_of_no_brace rfl, byteSize_cons, byteSize_cons,
        ← Nat.add_assoc, ← Nat.add_assoc, ← ih]
      rfl
  | case3 rest hescape =>
      rw [counted_of_no_brace rfl]
      rfl
  | case4 rest hbreak hescape =>
      have hnext : (Mode.literal quote).next quote = .code := by
        rw [Mode.next, if_neg hquote, if_pos (by simp)]
      rw [counted_of_no_brace rfl, hnext, byteSize_cons, byteSize_nil]
      rfl
  | case5 c rest hescape hbreak hend ih =>
      by_cases hc : c = '\\'
      · -- a backslash that ends the text
        cases rest with
        | nil => rw [counted_of_no_brace rfl]; rfl
        | cons d rest => exact (hescape d rest hc rfl).elim
      · have hnext : (Mode.literal quote).next c = .literal quote := by
          simp [Mode.next, hc, hbreak, hend]
        rw [counted_of_no_brace rfl, hnext, ih, byteSize_cons, Nat.add_assoc]

theorem pieceBrace?_singleton (c : Char) : pieceBrace? [c] = Mode.code.brace? c := by
  simp [pieceBrace?, Mode.brace?, Mode.isCode]

theorem pieceBrace?_cutPiece (text : List Char) :
    pieceBrace? (cutPiece text).1 = text.head?.bind Mode.code.brace? := by
  fun_cases cutPiece text with
  | case1 => rfl
  | case2 => rfl
  | case3 => rfl
  | case4 c rest _ _ hquote =>
      simp only [Bool.or_eq_true, decide_eq_true_eq] at hquote
      rcases hquote with rfl | rfl
      · rfl
      · rfl
  | case5 c => exact pieceBrace?_singleton c

-- A comment or a literal has no brace that counts, and the text behind it is read as code again.
theorem counted_cutPiece (offset : Nat) (text : List Char) :
    counted offset .code text =
      ((pieceBrace? (cutPiece text).1).map (offset, ·)).toList ++
        counted (offset + byteSize (cutPiece text).1) .code (cutPiece text).2 := by
  fun_cases cutPiece text with
  | case1 => rfl
  | case2 rest =>
      rw [counted_of_no_brace rfl, counted_of_no_brace rfl, byteSize_cons, byteSize_cons,
        ← Nat.add_assoc, ← Nat.add_assoc]
      exact counted_lineComment _ rest
  | case3 rest =>
      rw [counted_of_no_brace rfl, counted_of_no_brace rfl, byteSize_cons, byteSize_cons,
        ← Nat.add_assoc, ← Nat.add_assoc]
      exact counted_blockComment _ rest
  | case4 c rest _ _ hquote =>
      simp only [Bool.or_eq_true, decide_eq_true_eq] at hquote
      dsimp only
      rw [byteSize_cons, ← Nat.add_assoc]
      rcases hquote with rfl | rfl
      · rw [counted_of_no_brace rfl]
        exact counted_literal _ (by decide) rest
      · rw [counted_of_no_brace rfl]
        exact counted_literal _ (by decide) rest
  | case5 c rest hslash hstar hquote =>
      dsimp only
      rw [counted, pieceBrace?_singleton, byteSize_cons, byteSize_nil, Nat.add_zero]
      congr 1
      by_cases hc : c = '/'
      · subst hc
        exact counted_slash (fun tail => hslash tail rfl) fun tail => hstar tail rfl
      · have hnext : Mode.code.next c = .code := by
          simp [Mode.next, Mode.afterCode, hc, hquote]
        rw [hnext]

-- Reading piece by piece and reading character by character meet the same braces.
theorem bracesAmong_pieces (offset : Nat) (text : List Char) :
    bracesAmong offset (pieces text) = counted offset .code text := by
  fun_induction pieces text generalizing offset with
  | case1 => rfl
  | case2 c rest ih => rw [bracesAmong, ih, ← counted_cutPiece]

end TypeAtlas.Dump
