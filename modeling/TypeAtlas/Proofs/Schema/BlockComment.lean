import TypeAtlas.Proofs.Schema.CommentLine

namespace TypeAtlas.Dump

open Text

-- A block comment that has its lines to itself.
structure BlockComment where
  indent : List Char
  inside : List Char
  trail : List Char
  indents : ∀ c ∈ indent, isIndent c
  closes : ¬['*', '/'] <:+: inside
  trails : ∀ c ∈ trail, isLayout c ∧ c ≠ '\n'

namespace BlockComment

def text (comment : BlockComment) : List Char :=
  comment.indent ++ '/' :: '*' :: (comment.inside ++ '*' :: '/' :: comment.trail)

def blank (c : Char) : Char :=
  if c = '\n' then '\n' else ' '

-- The lines of the comment with blanks in its place.
def blanked (comment : BlockComment) : List Char :=
  comment.indent ++
    (('/' :: '*' :: (comment.inside ++ ['*', '/'])).map blank ++ comment.trail)

-- No line of the comment but its first says anything when it is read alone.
def Quiet (comment : BlockComment) : Prop :=
  (∀ line ∈ laterLines comment.text, Header.read? line = none) ∧
    ∀ line ∈ (lines (comment.text ++ ['\n'])).tail, Silent line

instance (comment : BlockComment) : Decidable comment.Quiet :=
  inferInstanceAs (Decidable (_ ∧ _))

end BlockComment

-- Layout is met in code as if it were not there.
theorem within?_layout {text : List Char} (h : ∀ c ∈ text, isLayout c) (depth : Nat) :
    within? .code depth text = some (.code, depth) := by
  induction text with
  | nil => rfl
  | cons c text ih =>
      obtain ⟨hc, htext⟩ := List.forall_mem_cons.mp h
      have hcode : Mode.code.brace? c = none ∧ Mode.code.next c = .code := by
        simp only [isLayout, Bool.or_eq_true, beq_iff_eq] at hc
        rcases hc with (((rfl | rfl) | rfl) | rfl) | rfl <;> decide
      rw [within?_of_no_brace hcode.1, hcode.2, ih htext]

theorem isLayout_of_indents (comment : BlockComment) : ∀ c ∈ comment.indent, isLayout c :=
  fun c hc => isLayout_of_isIndent (comment.indents c hc)

-- The front of a comment leads from code into the comment.
theorem within?_front (comment : BlockComment) (depth : Nat) (rest : List Char) :
    within? .code depth (comment.indent ++ '/' :: '*' :: rest) =
      within? .blockComment depth rest := by
  rw [within?_append, within?_layout (isLayout_of_indents comment)]
  rfl

theorem within?_text (comment : BlockComment) (depth : Nat) :
    within? .code depth comment.text = some (.code, depth) := by
  obtain ⟨mode, hmode, hinside⟩ := within?_blockComment comment.closes depth
  have hstar : within? mode depth ('*' :: '/' :: comment.trail) = some (.code, depth) := by
    have htrail := within?_layout (fun c hc => (comment.trails c hc).1) depth
    rcases hmode with rfl | rfl
    · exact htrail
    · exact htrail
  rw [BlockComment.text, within?_front, within?_append, hinside]
  exact hstar

theorem Header.read?_layout {text : List Char} (h : ∀ c ∈ text, isLayout c) :
    Header.read? text = none := by
  refine Header.read?_of_stops fun c hc => ?_
  have hlayout := h c ((List.dropWhile_suffix isIndent).subset (List.mem_of_head? hc))
  have hindent : isIndent c = false := by
    have hhead := List.head?_dropWhile_not isIndent text
    rwa [hc] at hhead
  simp only [isLayout, Bool.or_eq_true, beq_iff_eq] at hlayout
  rcases hlayout with (((rfl | rfl) | rfl) | rfl) | rfl
  · cases hindent
  · cases hindent
  · decide
  · decide
  · decide

theorem silent_layout {line : List Char} (h : ∀ c ∈ line, isLayout c) : Silent line := by
  have hblank : trimStart line = [] := by
    have hdrop : trimStart (line ++ []) = trimStart [] :=
      List.dropWhile_append_of_pos fun c hc => isBlank_of_isLayout (h c hc)
    rwa [List.append_nil] at hdrop
  refine ⟨FieldLine.read?_slash ?_, balance_of_within? (within?_layout h 0)⟩
  rw [hblank]
  exact .nil _

-- Lines of layout say nothing wherever the scan is in code and awaits no brace.
theorem unseen_layout {front inserted : List Char} (back : List Char)
    (hcode : ∀ state ∈ openBlocks front, state.1 = .code) (hawaits : ¬AwaitsBrace front)
    (h : ∀ c ∈ inserted, isLayout c) : Unseen front inserted back where
  headers line hline :=
    Header.read?_layout fun c hc => h c ((suffix_of_mem_lineStarts hline).subset hc)
  silent line hline := by
    refine silent_layout fun c hc => ?_
    rcases List.mem_append.mp (subset_of_mem_lines hline hc) with hmem | hmem
    · exact h c hmem
    · cases List.mem_singleton.mp hmem
      rfl
  awaited hawaited := absurd hawaited hawaits
  blocks state hstate := by
    obtain ⟨mode, depth⟩ := state
    cases hcode _ hstate
    rw [within?_append, within?_layout h]
    rfl

-- What begins with a comment, read alone, says nothing, if the comment ends at the depth at which
-- it begins.
theorem silent_front (comment : BlockComment) {rest : List Char} {mode : Mode}
    (h : within? .blockComment 0 rest = some (mode, 0)) :
    Silent (comment.indent ++ '/' :: '*' :: rest) := by
  have htrim : trimStart (comment.indent ++ '/' :: '*' :: rest) = '/' :: '*' :: rest :=
    List.dropWhile_append_of_pos fun c hc => isBlank_of_isLayout (isLayout_of_indents comment c hc)
  refine ⟨FieldLine.read?_slash ?_, balance_of_within? ((within?_front comment 0 rest).trans h)⟩
  rw [htrim]
  exact .cons List.mem_cons_self _

theorem break_not_mem_front (comment : BlockComment) {rest : List Char} (h : '\n' ∉ rest) :
    '\n' ∉ comment.indent ++ '/' :: '*' :: rest := by
  intro hmem
  rcases List.mem_append.mp hmem with hmem | hmem
  · exact absurd (comment.indents '\n' hmem) (by decide)
  · simp only [List.mem_cons] at hmem
    rcases hmem with hmem | hmem | hmem
    · cases hmem
    · cases hmem
    · exact h hmem

-- The first line of a comment ends within the comment or behind it.
theorem silent_firstLine (comment : BlockComment) :
    ∃ line rest, lines (comment.text ++ ['\n']) = line :: rest ∧ Silent line := by
  obtain ⟨line, rest, htext, hbreak, hsilent⟩ : ∃ line rest,
      comment.text ++ ['\n'] = line ++ '\n' :: rest ∧ '\n' ∉ line ∧ Silent line := by
    by_cases hmem : '\n' ∈ comment.inside
    · obtain ⟨front, back, hinside, hfront⟩ := List.eq_append_cons_of_mem hmem
      have hcloses : ¬['*', '/'] <:+: front := fun hpart =>
        comment.closes (hinside ▸ hpart.trans (List.prefix_append front _).isInfix)
      obtain ⟨mode, -, hwithin⟩ := within?_blockComment hcloses 0
      refine ⟨_, back ++ '*' :: '/' :: (comment.trail ++ ['\n']), ?_,
        break_not_mem_front comment hfront, silent_front comment hwithin⟩
      simp [BlockComment.text, hinside]
    · refine ⟨comment.text, [], rfl, break_not_mem_front comment ?_, silent_front comment
        ((within?_front comment 0 _).symm.trans (within?_text comment 0))⟩
      intro hbreak
      simp only [List.mem_append, List.mem_cons] at hbreak
      rcases hbreak with hbreak | hbreak | hbreak | hbreak
      · exact hmem hbreak
      · cases hbreak
      · cases hbreak
      · exact (comment.trails '\n' hbreak).2 rfl
  obtain ⟨hread, hbalance⟩ := sameWeight_withoutReturn line
  rw [htext, lines_line hbreak]
  exact ⟨_, _, rfl, hread.trans hsilent.1, hbalance.trans hsilent.2⟩

theorem unseen_text {front : List Char} (back : List Char) (comment : BlockComment)
    (hquiet : comment.Quiet) (hcode : ∀ state ∈ openBlocks front, state.1 = .code)
    (hawaits : ¬AwaitsBrace front) : Unseen front comment.text back where
  headers line hline := by
    rcases List.mem_cons.mp hline with rfl | hline
    · refine Header.read?_of_stops ?_
      rw [BlockComment.text, List.dropWhile_append_of_pos comment.indents]
      exact .cons (by decide) _
    · exact hquiet.1 line hline
  silent line hline := by
    obtain ⟨first, rest, hlines, hfirst⟩ := silent_firstLine comment
    have hrest := hquiet.2
    rw [hlines] at hline hrest
    rcases List.mem_cons.mp hline with rfl | hline
    · exact hfirst
    · exact hrest line hline
  awaited hawaited := absurd hawaited hawaits
  blocks state hstate := by
    obtain ⟨mode, depth⟩ := state
    cases hcode _ hstate
    rw [within?_append, within?_text]
    rfl

theorem isLayout_of_mem_blanked (comment : BlockComment) : ∀ c ∈ comment.blanked, isLayout c := by
  have hblank (c : Char) : isLayout (BlockComment.blank c) := by
    unfold BlockComment.blank
    split
    · rfl
    · rfl
  intro c hc
  rcases List.mem_append.mp hc with hc | hc
  · exact isLayout_of_indents comment c hc
  · rcases List.mem_append.mp hc with hc | hc
    · obtain ⟨d, -, rfl⟩ := List.mem_map.mp hc
      exact hblank d
    · exact (comment.trails c hc).1

end TypeAtlas.Dump

namespace TypeAtlas.Schema

open Dump Text

-- A block comment with its lines to itself changes nothing but the hash, if none of its further
-- lines says anything when it is read alone, and if it stands in code, not between a header and its
-- brace and not within an enum.
theorem ofDump_blanked (rules : Rules) {before after : List (List Char)} (comment : BlockComment)
    (hquiet : comment.Quiet) (hcode : ∀ state ∈ openBlocks (unlines before), state.1 = .code)
    (hawaits : ¬AwaitsBrace (unlines before))
    (henum : ¬InEnum (unlines (before ++ after)) (unlines after))
    (hend : ¬EndsEnum (unlines (before ++ after)) (unlines after)) :
    ofDump rules (unlines (before ++ comment.blanked :: after)) =
      { ofDump rules (unlines (before ++ comment.text :: after)) with
        hash := (ofDump rules (unlines (before ++ comment.blanked :: after))).hash } := by
  have htext := unseen_text (unlines after) comment hquiet hcode hawaits
  have hblanked := unseen_layout (unlines after) hcode hawaits (isLayout_of_mem_blanked comment)
  have hwith : Agree rules (Index.scan (unlines (before ++ after)))
      (Index.scan (unlines (before ++ comment.text :: after))) :=
    agree_inserted htext.headers (fun _ => htext) henum fun hends => absurd hends hend
  have hwithout : Agree rules (Index.scan (unlines (before ++ after)))
      (Index.scan (unlines (before ++ comment.blanked :: after))) :=
    agree_inserted hblanked.headers (fun _ => hblanked) henum fun hends => absurd hends hend
  exact ofDump_of_agree (hwith.symm.trans hwithout)

def unitAbove : List (List Char) :=
  ["class UnitTemplate ".toList ++ ['{']]

def unitBelow : List (List Char) :=
  ["public int hp; // 0x10".toList, ['}'], []]

theorem isIndent_tab : ∀ c ∈ ['\t'], isIndent c := by
  decide

theorem isIndent_nil : ∀ c ∈ ([] : List Char), isIndent c :=
  List.forall_mem_nil _

-- What stands on its first line does not count.
def quietComment : BlockComment where
  indent := ['\t']
  inside := "* class UnitTemplate ".toList ++ ['{'] ++
    " public int mp; // 0x14\n\t * the health of a unit\n\t ".toList
  trail := []
  indents := isIndent_tab
  closes := by
    dsimp only [String.reduceToList]
    decide +kernel
  trails := by decide

theorem quietComment_blanked :
    (quietComment.Quiet ∧ (∀ state ∈ openBlocks (unlines unitAbove), state.1 = .code) ∧
      ¬AwaitsBrace (unlines unitAbove) ∧
      ¬InEnum (unlines (unitAbove ++ unitBelow)) (unlines unitBelow) ∧
      ¬EndsEnum (unlines (unitAbove ++ unitBelow)) (unlines unitBelow)) ∧
    ofDump .standard (unlines (unitAbove ++ quietComment.blanked :: unitBelow)) =
      { ofDump .standard (unlines (unitAbove ++ quietComment.text :: unitBelow)) with
        hash := (ofDump .standard
          (unlines (unitAbove ++ quietComment.blanked :: unitBelow))).hash } := by
  have hquiet : quietComment.Quiet := by
    dsimp only [quietComment, String.reduceToList]
    decide +kernel
  have hcode : ∀ state ∈ openBlocks (unlines unitAbove), state.1 = .code := by
    dsimp only [unitAbove, String.reduceToList]
    decide +kernel
  have hawaits : ¬AwaitsBrace (unlines unitAbove) := by
    dsimp only [unitAbove, String.reduceToList]
    decide +kernel
  have henum : ¬InEnum (unlines (unitAbove ++ unitBelow)) (unlines unitBelow) := by
    dsimp only [unitAbove, unitBelow, String.reduceToList]
    decide +kernel
  have hend : ¬EndsEnum (unlines (unitAbove ++ unitBelow)) (unlines unitBelow) := by
    dsimp only [unitAbove, unitBelow, String.reduceToList]
    decide +kernel
  exact ⟨⟨hquiet, hcode, hawaits, henum, hend⟩,
    ofDump_blanked .standard quietComment hquiet hcode hawaits henum hend⟩

-- A comment with a closing brace on a line of its own.
def braceComment : BlockComment where
  indent := []
  inside := ['\n', '}', '\n']
  trail := []
  indents := isIndent_nil
  closes := by decide
  trails := by decide

-- The fields are read line by line, and no line but the first knows of the comment: the brace in it
-- counts, so that the field below is not taken for one of the class.
theorem braceComment_blanked_differs :
    (ofDump .standard (unlines (unitAbove ++ braceComment.blanked :: unitBelow))).templates ≠
      (ofDump .standard (unlines (unitAbove ++ braceComment.text :: unitBelow))).templates := by
  have hblanked : ((ofDump .standard (unlines
      (unitAbove ++ braceComment.blanked :: unitBelow))).templates.get? "UnitTemplate").map
        (fun template => template.fields.map Field.name) = some ["hp"] := by
    dsimp only [unitAbove, unitBelow, String.reduceToList]
    decide +kernel
  have htext : ((ofDump .standard (unlines
      (unitAbove ++ braceComment.text :: unitBelow))).templates.get? "UnitTemplate").map
        (fun template => template.fields.map Field.name) = some [] := by
    dsimp only [unitAbove, unitBelow, String.reduceToList]
    decide +kernel
  intro hsame
  rw [hsame, htext] at hblanked
  cases hblanked

end TypeAtlas.Schema
