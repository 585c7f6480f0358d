import TypeAtlas.Proofs.Schema.Insertion

namespace TypeAtlas.Dump

open Text

-- A block that is open below a line, which is not continued by a backslash, is met in code or in a
-- block comment.
theorem mode_of_openBlocks {text : List Char} (htext : text.getLast? ≠ some '\\')
    {state : Mode × Nat} (h : state ∈ openBlocks text) :
    state.1 = .code ∨ state.1 = .blockComment := by
  obtain ⟨line, hline, hstate⟩ := List.mem_filterMap.mp h
  cases opening line with
  | finds header inner ends found =>
      rw [found [], Option.bind_some] at hstate
      rw [mode_of_within? hstate, Mode.after_append]
      refine Mode.next_break fun quote hquote => htext ?_
      obtain ⟨before, hbefore⟩ := ends.trans (suffix_of_mem_lineStarts hline)
      rw [← hbefore, List.getLast?_append, Mode.getLast?_of_escape hquote]
      rfl
  | fails none =>
      rw [none [], Option.bind_none] at hstate
      cases hstate
  | goesOn header behind =>
      rw [behind []] at hstate
      cases hstate

def commentLine (comment : List Char) : List Char :=
  '/' :: '/' :: ' ' :: comment

variable {comment : List Char}

theorem within?_commentLine (hline : '\n' ∉ comment) (hclosed : ¬['*', '/'] <:+: comment)
    {mode : Mode} (hmode : mode = .code ∨ mode = .blockComment) (depth : Nat) :
    within? mode depth (commentLine comment ++ ['\n']) = some (mode, depth) := by
  rw [within?_append]
  rcases hmode with rfl | rfl
  · have hspace : '\n' ∉ ' ' :: comment := by simpa using hline
    have hcomment : within? .code depth (commentLine comment) = some (.lineComment, depth) :=
      within?_lineComment hspace depth
    rw [hcomment]
    rfl
  · have hnotClosed : ¬['*', '/'] <:+: commentLine comment := by
      simpa [commentLine, List.infix_cons_iff] using hclosed
    obtain ⟨mode, hmode, hcomment⟩ := within?_blockComment hnotClosed depth
    rw [hcomment]
    rcases hmode with rfl | rfl
    · rfl
    · rfl

theorem silent_commentLine (hline : '\n' ∉ comment) :
    ∀ line ∈ lines (commentLine comment ++ ['\n']), Silent line := by
  have hwhole : '\n' ∉ commentLine comment := by simpa [commentLine] using hline
  have hspace : '\n' ∉ ' ' :: comment := by simpa using hline
  obtain ⟨hread, hbalance⟩ := sameWeight_withoutReturn (commentLine comment)
  intro line hmem
  rw [lines_line hwhole] at hmem
  cases List.mem_singleton.mp hmem
  refine ⟨hread.trans (FieldLine.read?_slash (.cons List.mem_cons_self _)), hbalance.trans ?_⟩
  exact balance_of_within? (within?_lineComment hspace 0)

theorem headers_commentLine (hline : '\n' ∉ comment) :
    ∀ line ∈ lineStarts (commentLine comment), Header.read? line = none := by
  have hwhole : '\n' ∉ commentLine comment := by simpa [commentLine] using hline
  intro line hmem
  rw [lineStarts, laterLines_eq_nil_of_not_mem hwhole] at hmem
  cases List.mem_singleton.mp hmem
  exact Header.read?_of_stops (.cons (by decide) _)

theorem unseen_commentLine {front back : List Char} (hfront : front.getLast? ≠ some '\\')
    (hline : '\n' ∉ comment) (hclosed : ¬['*', '/'] <:+: comment) :
    Unseen front (commentLine comment) back where
  headers := headers_commentLine hline
  silent := silent_commentLine hline
  awaited _ :=
    opening?_comment (show '\n' ∉ ' ' :: comment by simpa using hline) true back
  blocks state hstate := within?_commentLine hline hclosed (mode_of_openBlocks hfront hstate) state.2

end TypeAtlas.Dump

namespace TypeAtlas.Schema

open Dump Text

theorem endsSame_commentLine {comment : List Char} (hline : '\n' ∉ comment) :
    EndsSame (commentLine comment) := by
  have hwhole : '\n' ∉ commentLine comment := by simpa [commentLine] using hline
  have hstop : Stops ['/'] (commentLine comment ++ ['\n']) := .cons List.mem_cons_self _
  have hbehind := afterLine?_line hwhole []
  have hmembers : membersBehind (commentLine comment ++ ['\n']) = [] := by
    rw [membersBehind, hbehind]
    decide +kernel
  have hstorage : (afterLine? (commentLine comment ++ ['\n'])).bind storage? = none := by
    rw [hbehind]
    decide +kernel
  intro declared body
  have hbody : body ++ '\n' :: (commentLine comment ++ ['\n']) =
      (body ++ ['\n']) ++ (commentLine comment ++ ['\n']) := by
    rw [List.append_assoc, List.singleton_append]
  rw [hbody, Enum.read?, Enum.read?, Enum.ofBody?, Enum.ofBody?, enumMembers_append hstop hmembers,
    storage?_append hstop hstorage]

-- A comment line between two lines of a dump changes nothing but the hash, whatever the comment
-- says. The line before it must not end in a backslash, which may continue a literal, the comment
-- must not close a block comment around it, and the place must not be within an enum, whose
-- constants may go over several lines.
theorem ofDump_commentLine (rules : Rules) {before after : List (List Char)} {comment : List Char}
    (hbefore : ∀ line ∈ before.getLast?, line.getLast? ≠ some '\\')
    (hline : '\n' ∉ comment) (hclosed : ¬['*', '/'] <:+: comment)
    (henum : ¬InEnum (unlines (before ++ after)) (unlines after)) :
    ofDump rules (unlines (before ++ commentLine comment :: after)) =
      { ofDump rules (unlines (before ++ after)) with
        hash := (ofDump rules (unlines (before ++ commentLine comment :: after))).hash } := by
  refine ofDump_of_agree (agree_inserted (headers_commentLine hline) (fun hne => ?_) henum
    fun _ => endsSame_commentLine hline)
  refine unseen_commentLine ?_ hline hclosed
  obtain ⟨front, last, rfl⟩ := List.eq_nil_or_concat' before |>.resolve_left hne
  exact getLast?_unlines_ne (by decide) (hbefore last List.getLast?_concat)

def linesAbove : List (List Char) :=
  ["enum Rank ".toList ++ braced " const int Low = 1; ".toList, "class UnitTemplate".toList]

def linesBelow : List (List Char) :=
  [['{'], "public int hp; // 0x10".toList, ['}']]

-- A header, braces, a quote and a field, none of which counts.
def deceivingComment : List Char :=
  "class UnitTemplate ".toList ++ braced [' '] ++ " \" public int mp; // 0x14 /*".toList

-- A comment between the header of a class and its brace.
theorem deceivingComment_below_header :
    ((∀ line ∈ linesAbove.getLast?, line.getLast? ≠ some '\\') ∧ '\n' ∉ deceivingComment ∧
      ¬['*', '/'] <:+: deceivingComment ∧
      ¬InEnum (unlines (linesAbove ++ linesBelow)) (unlines linesBelow)) ∧
    ofDump .standard (unlines (linesAbove ++ commentLine deceivingComment :: linesBelow)) =
      { ofDump .standard (unlines (linesAbove ++ linesBelow)) with
        hash := (ofDump .standard
          (unlines (linesAbove ++ commentLine deceivingComment :: linesBelow))).hash } := by
  have hbefore : ∀ line ∈ linesAbove.getLast?, line.getLast? ≠ some '\\' := by
    dsimp only [linesAbove, String.reduceToList]
    decide
  have hline : '\n' ∉ deceivingComment := by
    dsimp only [deceivingComment, String.reduceToList]
    decide
  have hclosed : ¬['*', '/'] <:+: deceivingComment := by
    dsimp only [deceivingComment, String.reduceToList]
    decide
  have henum : ¬InEnum (unlines (linesAbove ++ linesBelow)) (unlines linesBelow) := by
    dsimp only [linesAbove, linesBelow, String.reduceToList]
    decide +kernel
  exact ⟨⟨hbefore, hline, hclosed, henum⟩,
    ofDump_commentLine .standard hbefore hline hclosed henum⟩

end TypeAtlas.Schema
