import TypeAtlas.Text.Line

namespace TypeAtlas.Text

-- What stands behind each line break of a text: the text from each later line on.
def laterLines : List Char → List (List Char)
  | [] => []
  | c :: rest => if c = '\n' then rest :: laterLines rest else laterLines rest

-- The text from each of its lines on, an empty one behind a last line break included.
def lineStarts (text : List Char) : List (List Char) :=
  text :: laterLines text

theorem suffix_of_mem_laterLines {text line : List Char} (h : line ∈ laterLines text) :
    line <:+ text := by
  induction text with
  | nil => cases h
  | cons c text ih =>
      rw [laterLines] at h
      split at h
      · rcases List.mem_cons.mp h with rfl | h
        · exact List.suffix_cons c line
        · exact (ih h).trans (List.suffix_cons c text)
      · exact (ih h).trans (List.suffix_cons c text)

theorem suffix_of_mem_lineStarts {text line : List Char} (h : line ∈ lineStarts text) :
    line <:+ text := by
  rcases List.mem_cons.mp h with rfl | h
  · exact List.suffix_rfl
  · exact suffix_of_mem_laterLines h

theorem laterLines_append (front back : List Char) :
    laterLines (front ++ back) = (laterLines front).map (· ++ back) ++ laterLines back := by
  induction front with
  | nil => rfl
  | cons c front ih =>
      simp only [List.cons_append, laterLines, ih]
      split
      · rfl
      · rfl

theorem laterLines_eq_nil_of_not_mem {text : List Char} (h : '\n' ∉ text) :
    laterLines text = [] := by
  induction text with
  | nil => rfl
  | cons c text ih =>
      obtain ⟨hc, htext⟩ := List.ne_and_not_mem_of_not_mem_cons h
      rw [laterLines, if_neg (Ne.symm hc), ih htext]

theorem getLast?_of_nil_mem_laterLines {text : List Char} (h : [] ∈ laterLines text) :
    text.getLast? = some '\n' := by
  induction text with
  | nil => cases h
  | cons c text ih =>
      rw [laterLines] at h
      split at h
      · rename_i hc
        rcases List.mem_cons.mp h with rfl | h
        · exact congrArg some hc
        · rw [List.getLast?_cons, ih h]
          rfl
      · rw [List.getLast?_cons, ih h]
        rfl

theorem length_of_mem_laterLines {text line : List Char} (h : line ∈ laterLines text) :
    line.length < text.length := by
  induction text with
  | nil => cases h
  | cons c text ih =>
      rw [laterLines] at h
      split at h
      · rcases List.mem_cons.mp h with rfl | h
        · exact Nat.lt_succ_self _
        · exact Nat.lt_succ_of_lt (ih h)
      · exact Nat.lt_succ_of_lt (ih h)

-- A line of a text begins with it, or behind a line break.
theorem getLast?_of_mem_lineStarts {front rest : List Char} (h : rest ∈ lineStarts (front ++ rest)) :
    front = [] ∨ front.getLast? = some '\n' := by
  rcases List.mem_cons.mp h with hfirst | hlater
  · exact .inl (List.self_eq_append_left.mp hfirst)
  · rw [laterLines_append] at hlater
    rcases List.mem_append.mp hlater with hmem | hmem
    · obtain ⟨line, hline, happend⟩ := List.mem_map.mp hmem
      rw [List.append_left_eq_self.mp happend] at hline
      exact .inr (getLast?_of_nil_mem_laterLines hline)
    · exact absurd (length_of_mem_laterLines hmem) (Nat.lt_irrefl _)

theorem laterLines_line {line : List Char} (h : '\n' ∉ line) (rest : List Char) :
    laterLines (line ++ '\n' :: rest) = lineStarts rest := by
  rw [laterLines_append, laterLines_eq_nil_of_not_mem h, laterLines, if_pos rfl]
  rfl

theorem lineStarts_break (front back : List Char) :
    lineStarts (front ++ '\n' :: back) =
      (lineStarts front).map (· ++ '\n' :: back) ++ lineStarts back := by
  rw [lineStarts, laterLines_append, laterLines, if_pos rfl]
  rfl

theorem laterLines_of_afterLine? {text rest : List Char} (h : afterLine? text = some rest) :
    laterLines text = rest :: laterLines rest := by
  induction text with
  | nil => cases h
  | cons c text ih =>
      simp only [afterLine?] at h
      simp only [laterLines]
      split at h
      · rename_i hc
        cases h
        rw [if_pos hc]
      · rename_i hc
        rw [if_neg hc, ih h]

theorem laterLines_eq_nil {text : List Char} (h : afterLine? text = none) :
    laterLines text = [] := by
  induction text with
  | nil => rfl
  | cons c text ih =>
      simp only [afterLine?] at h
      simp only [laterLines]
      split at h
      · cases h
      · rename_i hc
        rw [if_neg hc, ih h]

theorem afterLine?_append (text more : List Char) :
    afterLine? (text ++ more) =
      ((afterLine? text).map (· ++ more)).orElse fun _ => afterLine? more := by
  induction text with
  | nil => rfl
  | cons c text ih =>
      simp only [List.cons_append, afterLine?, ih]
      split
      · rfl
      · rfl

theorem afterLine?_behind {line : List Char} (h : '\n' ∉ line) (more : List Char) :
    afterLine? (line ++ more) = afterLine? more := by
  induction line with
  | nil => rfl
  | cons c line ih =>
      obtain ⟨hc, hline⟩ := List.ne_and_not_mem_of_not_mem_cons h
      rw [List.cons_append, afterLine?, if_neg (Ne.symm hc), ih hline]

theorem afterLine?_line {line : List Char} (h : '\n' ∉ line) (rest : List Char) :
    afterLine? (line ++ '\n' :: rest) = some rest :=
  afterLine?_behind h ('\n' :: rest)

-- A line without the carriage return of its ending.
def withoutReturn (line : List Char) : List Char :=
  (dropReturn line.reverse).reverse

theorem linesAfter_line {line : List Char} (h : '\n' ∉ line) (seen rest : List Char) :
    linesAfter seen (line ++ '\n' :: rest) =
      (dropReturn (line.reverse ++ seen)).reverse :: lines rest := by
  induction line generalizing seen with
  | nil => rfl
  | cons c line ih =>
      obtain ⟨hc, hline⟩ := List.ne_and_not_mem_of_not_mem_cons h
      rw [List.cons_append, linesAfter, if_neg (Ne.symm hc), ih hline, List.reverse_cons,
        List.append_assoc, List.singleton_append]

theorem lines_line {line : List Char} (h : '\n' ∉ line) (rest : List Char) :
    lines (line ++ '\n' :: rest) = withoutReturn line :: lines rest := by
  rw [lines, linesAfter_line h, List.append_nil]
  rfl

theorem linesAfter_last {line : List Char} (h : '\n' ∉ line) (seen : List Char) :
    linesAfter seen line = if seen = [] ∧ line = [] then [] else [seen.reverse ++ line] := by
  induction line generalizing seen with
  | nil => cases seen <;> simp [linesAfter]
  | cons c line ih =>
      obtain ⟨hc, hline⟩ := List.ne_and_not_mem_of_not_mem_cons h
      rw [linesAfter, if_neg (Ne.symm hc), ih hline]
      simp

-- A text is read line by line: it is a last line, or a line before a text that has fewer of them.
@[elab_as_elim]
theorem lineInduction {motive : List Char → Prop} (last : ∀ line, '\n' ∉ line → motive line)
    (step : ∀ line rest, '\n' ∉ line → motive rest → motive (line ++ '\n' :: rest))
    (text : List Char) : motive text := by
  by_cases h : '\n' ∈ text
  · obtain ⟨line, rest, htext, hline⟩ := List.eq_append_cons_of_mem h
    exact htext ▸ step line rest hline (lineInduction last step rest)
  · exact last text h
termination_by text.length
decreasing_by
  rw [htext, List.length_append, List.length_cons]
  omega

theorem subset_withoutReturn (line : List Char) : withoutReturn line ⊆ line := by
  intro c hc
  have hmem := List.mem_reverse.mp hc
  unfold dropReturn at hmem
  split at hmem
  · rename_i rest hline
    exact List.mem_reverse.mp (hline ▸ List.mem_cons_of_mem _ hmem)
  · exact List.mem_reverse.mp hmem

theorem subset_of_mem_lines {text line : List Char} (h : line ∈ lines text) : line ⊆ text := by
  induction text using lineInduction with
  | last last hlast =>
      rw [lines, linesAfter_last hlast] at h
      split at h
      · cases h
      · cases List.mem_singleton.mp h
        exact List.Subset.refl _
  | step first rest hfirst ih =>
      rw [lines_line hfirst] at h
      rcases List.mem_cons.mp h with rfl | h
      · exact List.Subset.trans (subset_withoutReturn first) (List.subset_append_left _ _)
      · have hrest : rest ⊆ first ++ '\n' :: rest :=
          List.Subset.trans (List.subset_cons_self _ _) (List.subset_append_right _ _)
        exact List.Subset.trans (ih h) hrest

theorem lines_break (front back : List Char) :
    lines (front ++ '\n' :: back) = lines (front ++ ['\n']) ++ lines back := by
  induction front using lineInduction with
  | last line hline =>
      rw [lines_line hline, lines_line hline]; rfl
  | step line rest hline ih =>
      simp only [List.append_assoc, List.cons_append]
      rw [lines_line hline, lines_line hline, ih, List.cons_append]

theorem lines_of_ends {front : List Char} (hends : front = [] ∨ front.getLast? = some '\n')
    (rest : List Char) : lines (front ++ rest) = lines front ++ lines rest := by
  rcases hends with rfl | hends
  · rfl
  · obtain ⟨front, rfl⟩ := List.getLast?_eq_some_iff.mp hends
    rw [List.append_assoc, List.singleton_append, lines_break]

theorem exists_lines_cons {text : List Char} (h : text ≠ []) : ∃ line later, lines text = line :: later := by
  induction text using lineInduction with
  | last line hline => exact ⟨line, [], by simp [lines, linesAfter_last hline, h]⟩
  | step line rest hline _ => exact ⟨withoutReturn line, lines rest, lines_line hline rest⟩

-- The text of some lines, with a line break between each two.
def unlines (lines : List (List Char)) : List Char :=
  ['\n'].intercalate lines

@[simp] theorem unlines_singleton (line : List Char) : unlines [line] = line := by
  simp [unlines, List.intercalate]

theorem unlines_cons (line : List Char) {rest : List (List Char)} (h : rest ≠ []) :
    unlines (line :: rest) = line ++ '\n' :: unlines rest := by
  obtain ⟨next, rest, rfl⟩ := List.exists_cons_of_ne_nil h
  simp [unlines, List.intercalate]

theorem unlines_append {front back : List (List Char)} (hfront : front ≠ []) (hback : back ≠ []) :
    unlines (front ++ back) = unlines front ++ '\n' :: unlines back := by
  induction front with
  | nil => exact absurd rfl hfront
  | cons line front ih =>
      by_cases h : front = []
      · subst h
        rw [List.singleton_append, unlines_cons line hback, unlines_singleton]
      · have hne : front ++ back ≠ [] := List.append_ne_nil_of_left_ne_nil h back
        rw [List.cons_append, unlines_cons line hne, ih h, unlines_cons line h, List.append_assoc,
          List.cons_append]

theorem getLast?_unlines_ne {c : Char} (hc : c ≠ '\n') {front : List (List Char)}
    {last : List Char} (h : last.getLast? ≠ some c) :
    (unlines (front ++ [last])).getLast? ≠ some c := by
  by_cases hfront : front = []
  · rwa [hfront, List.nil_append, unlines_singleton]
  · rw [unlines_append hfront (List.cons_ne_nil last []), unlines_singleton, List.getLast?_append,
      List.getLast?_cons]
    cases hlast : last.getLast? with
    | none =>
        intro heq
        exact hc (Option.some.inj heq).symm
    | some d => simpa [hlast] using h

end TypeAtlas.Text
