import TypeAtlas.Proofs.Dump.FieldLine
import TypeAtlas.Proofs.Dump.Usable

namespace TypeAtlas.Dump

open Text

-- That no line break of a text stands in a block comment, or behind a backslash of a literal.
def PlainBreaks (text : List Char) : Prop :=
  ∀ before after, text = before ++ '\n' :: after →
    ¬(Mode.code.after before).InBlockComment ∧ ∀ quote, Mode.code.after before ≠ .escape quote

-- The depth behind some lines that begin at a depth, counted line by line.
def depthBehind (depth : Int) (lines : List (List Char)) : Int :=
  lines.foldl (fun level line => level + balance line) depth

-- The braces strictly between two byte offsets.
def between (first last : Nat) (braces : List (Nat × Brace)) : List (Nat × Brace) :=
  braces.filter fun brace => first < brace.1 && brace.1 < last

-- How deep a text is in the block opened at a byte offset, at a later byte offset.
def levelAt (text : List Char) (opening offset : Nat) : Int :=
  height (between opening offset (bracesFrom text opening))

-- That a body stands between an opening brace of a text and the brace that matches it.
def IsCut (text : List Char) (opening : Nat) (body : List Char) : Prop :=
  ∃ above below, text = above ++ '{' :: (body ++ '}' :: below) ∧ byteSize above = opening ∧
    matchingBrace? text opening = some (opening + 1 + byteSize body)

theorem nested_eq (mode : Mode) (depth : Int) (text : List Char) (offset : Nat) :
    nested (mode, depth) text = (mode.after text, depth + height (counted offset mode text)) := by
  induction text generalizing mode depth offset with
  | nil => simp [nested, counted, height_nil]
  | cons c rest ih =>
      have hstep : nested (mode, depth) (c :: rest) =
          nested (mode.next c, depth + Brace.step (mode.brace? c)) rest := rfl
      rw [hstep, ih _ _ (offset + c.utf8Size), Mode.after_cons]
      cases hbrace : mode.brace? c with
      | none => rw [counted_of_no_brace hbrace, Brace.step, Int.add_zero]
      | some brace => rw [counted_of_brace hbrace, height_cons, Int.add_assoc]

theorem balance_eq_height (line : List Char) (offset : Nat) :
    balance line = height (counted offset .code line) := by
  rw [balance_eq, nested_eq .code 0 line offset, Int.zero_add]

theorem depthBehind_cons (depth : Int) (line : List Char) (rest : List (List Char)) :
    depthBehind depth (line :: rest) = depthBehind (depth + balance line) rest := rfl

theorem topLines_append (depth : Int) (front back : List (List Char)) :
    topLines depth (front ++ back) = topLines depth front ++ topLines (depthBehind depth front) back := by
  induction front generalizing depth with
  | nil => rfl
  | cons line front ih =>
      rw [List.cons_append, topLines, topLines, ih, depthBehind_cons]
      split
      · rfl
      · rfl

theorem Mode.next_break_eq {mode : Mode} (hcomment : ¬mode.InBlockComment)
    (hescape : ∀ quote, mode ≠ .escape quote) : mode.next '\n' = .code := by
  rcases next_break hescape with hcode | hblock
  · exact hcode
  · cases mode with
    | blockComment => exact absurd (.inl rfl) hcomment
    | star => exact absurd (.inr rfl) hcomment
    | literal quote => simp [next] at hblock
    | escape quote => exact absurd rfl (hescape quote)
    | _ => cases hblock

-- Behind a plain line break the running reading is in code, as a reading of the next line alone is.
theorem PlainBreaks.after_line {line rest : List Char} (h : PlainBreaks (line ++ '\n' :: rest)) :
    (Mode.code.after line).next '\n' = .code := by
  obtain ⟨hcomment, hescape⟩ := h line rest rfl
  exact Mode.next_break_eq hcomment hescape

theorem PlainBreaks.rest {line rest : List Char} (h : PlainBreaks (line ++ '\n' :: rest)) :
    PlainBreaks rest := by
  rintro before after rfl
  have hsplit := h (line ++ '\n' :: before) after (by simp)
  rwa [Mode.after_append, Mode.after_cons, h.after_line] at hsplit

-- Without a star no block comment begins, and without a backslash no escape.
theorem plainBreaks_of_not_mem {text : List Char} (hstar : '*' ∉ text) (hbackslash : '\\' ∉ text) :
    PlainBreaks text := by
  rintro before after rfl
  have hbefore {c : Char} (hc : c ∈ before) : c ∈ before ++ '\n' :: after :=
    List.mem_append_left _ hc
  constructor
  · have hstep (mode : Mode) (hmode : ¬mode.InBlockComment) (c : Char) (hc : c ∈ before) :
        ¬(mode.next c).InBlockComment := by
      have hne : c ≠ '*' := fun heq => hstar (heq ▸ hbefore hc)
      cases mode <;> grind [Mode.next, Mode.afterCode, Mode.InBlockComment]
    exact List.foldlRecOn before Mode.next (by simp [Mode.InBlockComment]) hstep
  · intro quote hescape
    have hlast := Mode.getLast?_of_escape hescape
    exact hbackslash (hbefore (List.mem_of_getLast? hlast))

-- Whole lines come to the same depth one by one as in one go.
theorem depthBehind_lines {front : List Char} (hplain : PlainBreaks front)
    (hends : front = [] ∨ front.getLast? = some '\n') (depth : Int) (offset : Nat) :
    depthBehind depth (lines front) = depth + height (counted offset .code front) := by
  induction front using lineInduction generalizing depth offset with
  | last line hline =>
      rcases hends with rfl | hends
      · exact (Int.add_zero depth).symm
      · exact absurd (List.mem_of_getLast? hends) hline
  | step line rest hline ih =>
      have hrest : rest = [] ∨ rest.getLast? = some '\n' := by
        rcases List.eq_nil_or_concat rest with rfl | ⟨more, c, rfl⟩
        · exact .inl rfl
        · right
          simpa [List.getLast?_append, List.getLast?_cons] using hends
      have hbalance : balance (withoutReturn line) = height (counted offset .code line) :=
        (sameWeight_withoutReturn line).2.trans (balance_eq_height line offset)
      rw [lines_line hline, depthBehind_cons, hbalance,
        ih hplain.rest hrest _ (offset + byteSize line + ('\n' : Char).utf8Size), counted_append,
        height_append, counted_of_no_brace (Mode.brace?_break _), hplain.after_line, Int.add_assoc]

theorem between_bracesFrom {above front more : List Char} {opening : Nat}
    (habove : byteSize above = opening) :
    between opening (opening + 1 + byteSize front)
        (bracesFrom (above ++ '{' :: (front ++ more)) opening) =
      counted (opening + 1) .code front := by
  rw [bracesFrom_opening habove, counted_append, between, List.filter_cons_of_neg (by simp),
    List.filter_append, filter_counted_eq_self, filter_counted_eq_nil, List.append_nil]
  · intro i brace hlow
    have hhigh : ¬i < opening + 1 + byteSize front := by omega
    simp [hhigh]
  · intro i brace hlow hhigh
    have hlow : opening < i := by omega
    simp [hlow, hhigh]

theorem IsCut.levelAt_eq {text front rest : List Char} {opening : Nat}
    (h : IsCut text opening (front ++ rest)) :
    levelAt text opening (opening + 1 + byteSize front) =
      height (counted (opening + 1) .code front) := by
  obtain ⟨above, below, rfl, habove, -⟩ := h
  rw [levelAt, List.append_assoc, between_bracesFrom habove]

theorem exists_isCut_of_mem {text : List Char} {d : Declaration}
    (h : d ∈ (Index.scan text).declarations) : ∃ opening, IsCut text opening d.body := by
  obtain ⟨above, below, htext, hmatch⟩ := exists_match_of_mem h
  exact ⟨byteSize above, above, below, htext, rfl, hmatch⟩

-- The lines of a body, one by one, come to the depth that the braces before a line make it, so that
-- a line counts as one of the declaration where it begins at the top level of the body.
theorem depth_of_line {text : List Char} {d : Declaration} (h : d ∈ (Index.scan text).declarations) :
    (∃ opening, IsCut text opening d.body) ∧
      ∀ opening, IsCut text opening d.body → ∀ front rest, d.body = front ++ rest →
        rest ∈ lineStarts d.body → rest ≠ [] → PlainBreaks front →
          ∃ line later, lines rest = line :: later ∧ lines d.body = lines front ++ line :: later ∧
            depthBehind 0 (lines front) = levelAt text opening (opening + 1 + byteSize front) ∧
            topLines 0 (lines d.body) = topLines 0 (lines front) ++
              ((if levelAt text opening (opening + 1 + byteSize front) = 0 then [line] else []) ++
                topLines (levelAt text opening (opening + 1 + byteSize front) + balance line) later) := by
  refine ⟨exists_isCut_of_mem h, ?_⟩
  intro opening hcut front rest hbody hstart hnil hplain
  rw [hbody] at hcut hstart
  have hends := getLast?_of_mem_lineStarts hstart
  obtain ⟨line, later, hrest⟩ := exists_lines_cons hnil
  have hlines : lines d.body = lines front ++ line :: later := by
    rw [hbody, lines_of_ends hends, hrest]
  have hlevel : depthBehind 0 (lines front) = levelAt text opening (opening + 1 + byteSize front) := by
    rw [hcut.levelAt_eq, depthBehind_lines hplain hends 0 (opening + 1), Int.zero_add]
  refine ⟨line, later, hrest, hlines, hlevel, ?_⟩
  rw [hlines, topLines_append, hlevel, topLines]
  split
  · rfl
  · rfl

-- A field below a method with a brace in a comment.
def moveMethod : List Char :=
  "\n  void Move() ".toList ++ braced (" // ".toList ++ ['{'] ++ "\n  ".toList) ++ ['\n']

def sizeField : List Char :=
  "  public int size; // 0x10\n".toList

def walkerClass : Declaration :=
  ⟨.classType, "Walker", false, none, moveMethod ++ sizeField⟩

def walkerDump : List Char :=
  "class Walker ".toList ++ braced walkerClass.body ++ ['\n']

theorem depth_behind_moveMethod :
    ∃ opening, IsCut walkerDump opening walkerClass.body ∧
      depthBehind 0 (lines moveMethod) =
        levelAt walkerDump opening (opening + 1 + byteSize moveMethod) := by
  have hlisted : walkerClass ∈ (Index.scan walkerDump).declarations := by
    dsimp only [walkerDump, walkerClass, moveMethod, sizeField, String.reduceToList]
    decide +kernel
  have hstart : sizeField ∈ lineStarts walkerClass.body := by
    dsimp only [walkerClass, moveMethod, sizeField, String.reduceToList]
    decide +kernel
  have hplain : PlainBreaks moveMethod := by
    apply plainBreaks_of_not_mem
    · decide +kernel
    · decide +kernel
  obtain ⟨⟨opening, hcut⟩, hlines⟩ := depth_of_line hlisted
  obtain ⟨line, later, -, -, hdepth, -⟩ :=
    hlines opening hcut moveMethod sizeField rfl hstart (by decide +kernel) hplain
  exact ⟨opening, hcut, hdepth⟩

end TypeAtlas.Dump
