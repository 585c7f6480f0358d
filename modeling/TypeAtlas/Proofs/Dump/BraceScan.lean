import TypeAtlas.Proofs.Dump.Scanner

namespace TypeAtlas.Dump

open Text

-- A brace is a piece of its own.
theorem cutPiece_brace (brace : Brace) (rest : List Char) :
    cutPiece (brace.char :: rest) = ([brace.char], rest) := by
  cases brace <;> rfl

-- A line comment is the last piece of a line.
theorem cutPiece_comment {text : List Char} (hslashes : ['/', '/'] <+: text) (hbreak : '\n' ∉ text) :
    (cutPiece text).2 = [] := by
  obtain ⟨rest, rfl⟩ := hslashes
  apply List.dropWhile_eq_nil_iff.mpr
  intro c hc
  refine bne_iff_ne.mpr ?_
  rintro rfl
  exact hbreak (List.mem_append_right _ hc)

theorem ascii_brace (brace : Brace) : brace.char.toNat < 0x80 := by
  cases brace <;> decide

-- The first brace that leads out of a block so many blocks deep.
def closing? : Nat → List (Nat × Brace) → Option Nat
  | _, [] => none
  | depth, (_, .opening) :: rest => closing? (depth + 1) rest
  | 0, (i, .closing) :: _ => some i
  | outer + 1, (_, .closing) :: rest => closing? outer rest

theorem map_enclosedFrom (mode : Mode) (depth offset : Nat) (text : List Char) :
    (enclosedFrom mode depth [] text).map (fun block => offset + byteSize block.1) =
      closing? depth (counted offset mode text) := by
  induction text generalizing mode depth offset with
  | nil => rfl
  | cons c rest ih =>
      have hbehind (mode : Mode) (depth : Nat) :
          ((enclosedFrom mode depth [] rest).map fun block => (c :: block.1, block.2)).map
            (fun block => offset + byteSize block.1) =
          closing? depth (counted (offset + c.utf8Size) mode rest) := by
        rw [← ih, Option.map_map]
        congr 1
        funext block
        simp only [Function.comp_apply, byteSize_cons, Nat.add_assoc]
      rw [enclosedFrom_cons]
      cases hbrace : mode.brace? c with
      | none =>
          rw [counted_of_no_brace hbrace]
          exact hbehind _ _
      | some brace =>
          rw [counted_of_brace hbrace]
          cases brace with
          | opening => exact hbehind _ _
          | closing =>
              cases depth with
              | zero => rfl
              | succ outer => exact hbehind _ _

section

variable {bytes : List UInt8} {i : Nat} {text : List Char}

theorem behind_cutPiece (h : Stands bytes i text) :
    Stands bytes (i + byteSize (cutPiece text).1) (cutPiece text).2 := by
  rw [← cutPiece_append text] at h
  exact h.append

theorem lineEnd_of_slashes (h : Stands bytes i text) (hslashes : ['/', '/'] <+: text) :
    lineEnd bytes i = .ok (i + byteSize (cutPiece text).1) := by
  obtain ⟨rest, rfl⟩ := hslashes
  rw [lineEnd_of_stands h]
  rfl

theorem quote?_iff {c : Char} (h : Stands bytes i (c :: text)) :
    (bytes[i]? = some '\x22'.toUInt8 ∨ bytes[i]? = some '\x27'.toUInt8) ↔ isQuote c = true := by
  rw [h.byte_iff (by decide), h.byte_iff (by decide), isQuote, Bool.or_eq_true, beq_iff_eq, beq_iff_eq]

-- A jump over a piece comes down behind it, or within its last character.
theorem skip_of_stands (h : Stands bytes i text) (hnil : text ≠ []) (hslashes : ¬['/', '/'] <+: text) :
    ∃ next, skip bytes i = .ok next ∧ ∀ {β : Type} {read : Nat → β}, Passes bytes read →
      read next = read (i + byteSize (cutPiece text).1) := by
  have hcomment := h.two_bytes?_iff (d := '/') (e := '*') (by decide) (by decide)
  fun_cases cutPiece text with
  | case1 => exact absurd rfl hnil
  | case2 rest => exact absurd (List.prefix_append ['/', '/'] rest) hslashes
  | case3 rest =>
      have hrest : Stands bytes (i + 1 + 1) rest := h.next.next
      have hslash : ('/' : Char).utf8Size = 1 := utf8Size_of_ascii (by decide)
      have hstar : ('*' : Char).utf8Size = 1 := utf8Size_of_ascii (by decide)
      refine ⟨_, if_pos (hcomment.mpr (List.prefix_append ['/', '*'] rest)), fun _ => ?_⟩
      rw [blockCommentEnd, commentEndFrom_of_stands hrest, byteSize_cons, byteSize_cons, hslash, hstar]
      congr 1
      omega
  | case4 c rest _ hstar hquote =>
      have hquote' : isQuote c = true := hquote
      have hone := utf8Size_of_ascii (ascii_of_isQuote hquote')
      have hrest := h.next
      rw [hone] at hrest
      have hbyte := (h.byte_iff (ascii_of_isQuote hquote')).mpr rfl
      refine ⟨i + 1 + byteSize (cutLiteral c rest).1, ?_, fun _ => ?_⟩
      · rw [skip, if_neg (hcomment.not.mpr (not_prefix_pair hstar)), if_pos ((quote?_iff h).mpr hquote'),
          literalEnd, hbyte]
        dsimp only
        rw [literalEndFrom_of_stands hquote' hrest]
      · dsimp only
        rw [byteSize_cons, hone, Nat.add_assoc]
  | case5 c rest _ hstar hquote =>
      have hquote' : ¬isQuote c = true := hquote
      refine ⟨i + 1, ?_, fun hread => ?_⟩
      · rw [skip, if_neg (hcomment.not.mpr (not_prefix_pair hstar)),
          if_neg ((quote?_iff h).not.mpr hquote'), if_pos h.lt]
      · dsimp only
        rw [h.pass_first hread, byteSize_cons, byteSize_nil, Nat.add_zero]

-- Within a character every scanner goes on by one byte.
theorem skip_of_high {b : UInt8} (hb : bytes[i]? = some b) (hhigh : 0x80 ≤ b) :
    skip bytes i = .ok (i + 1) := by
  have hslash := ne_of_high (d := '/') hb hhigh (by decide)
  have hdouble := ne_of_high (d := '\x22') hb hhigh (by decide)
  have hsingle := ne_of_high (d := '\x27') hb hhigh (by decide)
  have hlt := (List.getElem?_eq_some_iff.mp hb).1
  rw [skip, if_neg fun hpair => hslash hpair.1, if_neg (not_or.mpr ⟨hdouble, hsingle⟩), if_pos hlt]

theorem exists_skip (h : i < bytes.length) : ∃ next, skip bytes i = .ok next := by
  rw [skip]
  split
  · exact ⟨_, rfl⟩
  · split
    · obtain ⟨stop, hstop, -⟩ := (jumpsForward bytes).literal i h
      exact ⟨stop, hstop⟩
    · exact ⟨i + 1, rfl⟩

end

-- A loop whose turns are those of a place of code.
section

variable {σ α : Type} {bytes : List UInt8} {loop : Loop bytes.length σ α}
  {atBrace : Nat → σ → Brace → Except Fault (Turn σ α)} {atComment : Nat → σ → Except Fault (Turn σ α)}
  (hcode : ∀ i state, loop.turn i state = codeTurn bytes i state (atBrace i state) (atComment i state))
include hcode

theorem passes_run (state : σ) : Passes bytes fun j => loop.run j state := by
  intro j b hb hhigh
  have hopening := ne_of_high (d := '{') hb hhigh (by decide)
  have hclosing := ne_of_high (d := '}') hb hhigh (by decide)
  have hslash := ne_of_high (d := '/') hb hhigh (by decide)
  have hturn : loop.turn j state = .ok (.moves (j + 1) state) := by
    rw [hcode, codeTurn, if_neg hopening, if_neg hclosing, if_neg fun hpair => hslash hpair.1,
      skip_of_high hb hhigh]
    rfl
  exact Loop.run_moves hturn

variable {i : Nat} {c : Char} {text : List Char}

theorem turn_brace {brace : Brace} (h : Stands bytes i (brace.char :: text)) (state : σ) :
    loop.turn i state = atBrace i state brace := by
  have hbyte := (h.byte_iff (ascii_brace brace)).mpr rfl
  rw [hcode, codeTurn, hbyte]
  cases brace with
  | opening => exact if_pos rfl
  | closing =>
      rw [if_neg (by decide)]
      exact if_pos rfl

theorem turn_no_brace (h : Stands bytes i (c :: text)) (hbrace : Mode.code.brace? c = none) (state : σ) :
    loop.turn i state =
      if ['/', '/'] <+: c :: text then atComment i state else (skip bytes i).map (.moves · state) := by
  have hbyte (brace : Brace) : bytes[i]? ≠ some brace.char.toUInt8 := by
    rw [ne_eq, h.byte_iff (ascii_brace brace)]
    rintro rfl
    cases brace <;> cases hbrace
  have hopening : bytes[i]? ≠ some '{'.toUInt8 := hbyte .opening
  have hclosing : bytes[i]? ≠ some '}'.toUInt8 := hbyte .closing
  rw [hcode, codeTurn, if_neg hopening, if_neg hclosing]
  have hslash : ('/' : Char).toNat < 0x80 := by decide
  simp only [h.two_bytes?_iff hslash hslash]

-- A turn may end within a character, and the turns after it then reach the end of the character.
theorem run_piece (h : Stands bytes i (c :: text)) (hbrace : Mode.code.brace? c = none)
    (hslashes : ¬['/', '/'] <+: c :: text) (state : σ) :
    loop.run i state = loop.run (i + byteSize (cutPiece (c :: text)).1) state := by
  obtain ⟨next, hskip, hnext⟩ := skip_of_stands h (List.cons_ne_nil c text) hslashes
  have hturn : loop.turn i state = .ok (.moves next state) := by
    rw [turn_no_brace hcode h hbrace, if_neg hslashes, hskip]
    rfl
  rw [Loop.run_moves hturn]
  exact hnext (passes_run hcode state)

end

section

variable {bytes : List UInt8} {i : Nat} {text : List Char}

-- The loop finds the first brace that leads out of the block it is in, piece by piece.
theorem run_braceLoop (h : Stands bytes i text) (depth : Nat) :
    (braceLoop bytes).run i (depth + 1) = .ok (closing? depth (bracesAmong i (pieces text))) := by
  fun_induction pieces text generalizing i depth with
  | case1 =>
      rw [Loop.run_past (Nat.le_of_eq h.length_eq_of_nil)]
      rfl
  | case2 c rest ih =>
      have hbehind := ih (behind_cutPiece h)
      rw [bracesAmong, pieceBrace?_cutPiece, List.head?_cons, Option.bind_some]
      cases hbrace : Mode.code.brace? c with
      | none =>
          rw [Option.map_none, Option.toList_none, List.nil_append, ← hbehind]
          by_cases hslashes : ['/', '/'] <+: c :: rest
          · have hturn : (braceLoop bytes).turn i (depth + 1) =
                .ok (.moves (i + byteSize (cutPiece (c :: rest)).1) (depth + 1)) := by
              rw [turn_no_brace (braceLoop_turn bytes) h hbrace, if_pos hslashes,
                lineEnd_of_slashes h hslashes]
              rfl
            exact Loop.run_moves hturn
          · exact run_piece (braceLoop_turn bytes) h hbrace hslashes (depth + 1)
      | some brace =>
          obtain ⟨-, rfl⟩ := brace?_eq_some_iff.mp hbrace
          have hturn : (braceLoop bytes).turn i (depth + 1) = braceAt i (depth + 1) brace :=
            turn_brace (braceLoop_turn bytes) h (depth + 1)
          rw [cutPiece_brace, byteSize_cons, byteSize_nil, utf8Size_of_ascii (ascii_brace brace)]
            at hbehind ⊢
          cases brace with
          | opening =>
              rw [Loop.run_moves hturn]
              exact hbehind (depth + 1)
          | closing =>
              cases depth with
              | zero => exact Loop.run_ends h.lt hturn
              | succ outer =>
                  rw [Loop.run_moves hturn]
                  exact hbehind outer

theorem closingPlace_of_stands {inner : List Char} (h : Stands bytes i ('{' :: inner)) :
    closingPlace bytes i = .ok ((enclosed? inner).map fun block => i + 1 + byteSize block.1) := by
  have hbyte := (h.byte_iff (d := '{') (by decide)).mpr rfl
  have hturn : braceTurn bytes i 0 = .ok (.moves (i + 1) 1) := if_pos hbyte
  have hinner : Stands bytes (i + 1) inner := h.next
  rw [closingPlace, if_pos hbyte, Loop.run_moves hturn, run_braceLoop hinner, bracesAmong_pieces,
    ← map_enclosedFrom]
  rfl

-- Along a line the loop keeps the depth that the braces so far make.
theorem run_depthLoop (h : Stands bytes i text) (hbreak : '\n' ∉ text) (depth : Int) :
    (depthLoop bytes).run i depth = .ok (depth + height (bracesAmong i (pieces text))) := by
  fun_induction pieces text generalizing i depth with
  | case1 =>
      rw [Loop.run_past (Nat.le_of_eq h.length_eq_of_nil), bracesAmong, height_nil, Int.add_zero]
      rfl
  | case2 c rest ih =>
      have hmore : '\n' ∉ (cutPiece (c :: rest)).2 := by
        rw [← cutPiece_append (c :: rest)] at hbreak
        exact fun hmem => hbreak (List.mem_append_right _ hmem)
      have hbehind := ih (behind_cutPiece h) hmore
      rw [bracesAmong, pieceBrace?_cutPiece, List.head?_cons, Option.bind_some]
      cases hbrace : Mode.code.brace? c with
      | none =>
          rw [Option.map_none, Option.toList_none, List.nil_append]
          by_cases hslashes : ['/', '/'] <+: c :: rest
          · have hturn : (depthLoop bytes).turn i depth = .ok (.ends depth) := by
              rw [turn_no_brace (depthLoop_turn bytes) h hbrace, if_pos hslashes]
            rw [cutPiece_comment hslashes hbreak, pieces, bracesAmong, height_nil, Int.add_zero]
            exact Loop.run_ends h.lt hturn
          · rw [← hbehind]
            exact run_piece (depthLoop_turn bytes) h hbrace hslashes depth
      | some brace =>
          obtain ⟨-, rfl⟩ := brace?_eq_some_iff.mp hbrace
          have hturn : (depthLoop bytes).turn i depth = depthAt i depth brace :=
            turn_brace (depthLoop_turn bytes) h depth
          rw [cutPiece_brace, byteSize_cons, byteSize_nil, utf8Size_of_ascii (ascii_brace brace)]
            at hbehind ⊢
          rw [Option.map_some, Option.toList_some, List.singleton_append, height_cons, ← Int.add_assoc,
            Loop.run_moves hturn]
          exact hbehind _

theorem exists_depthTurn (h : i < bytes.length) (depth : Int) :
    ∃ turn, depthTurn bytes i depth = .ok turn := by
  rw [depthTurn, codeTurn]
  split
  · exact ⟨_, rfl⟩
  · split
    · exact ⟨_, rfl⟩
    · split
      · exact ⟨_, rfl⟩
      · obtain ⟨next, hnext⟩ := exists_skip h
        exact ⟨.moves next depth, map_eq_ok_iff.mpr ⟨next, hnext, rfl⟩⟩

end

-- The scanner finds the brace that matches, for a place within a character and past the end too.
theorem closingPlace_eq (text : List Char) (offset : Nat) :
    closingPlace (encode text) offset = .ok (matchingBrace? text offset) := by
  by_cases hbyte : (encode text)[offset]? = some '{'.toUInt8
  · obtain ⟨above, inner, rfl, rfl⟩ := exists_of_getElem?_encode (by decide) hbyte
    rw [closingPlace_of_stands (stands_encode above _), matchingBrace?_opening rfl]
  · rw [closingPlace, if_neg hbyte]
    cases hmatch : matchingBrace? text offset with
    | none => rfl
    | some closing =>
        obtain ⟨above, body, below, rfl, rfl, -⟩ := matchingBrace?_eq_some_iff.mp hmatch
        exact absurd (getElem?_encode_append (by decide) above _) hbyte

theorem exists_depthOf (bytes : List UInt8) : ∃ depth, depthOf bytes = .ok depth :=
  Loop.exists_run_eq_ok (fun _ depth h => exists_depthTurn h depth) 0 0

theorem depthOf_eq {text : List Char} (hbreak : '\n' ∉ text) :
    depthOf (encode text) = .ok (balance text) := by
  have hstands : Stands (encode text) 0 text := stands_encode [] text
  rw [depthOf, run_depthLoop hstands hbreak, bracesAmong_pieces, ← balance_eq_height, Int.zero_add]

end TypeAtlas.Dump
