import TypeAtlas.Dump.Nesting

namespace TypeAtlas.Dump

-- A text in braces.
def braced (text : List Char) : List Char :=
  '{' :: text ++ ['}']

namespace Mode

-- The mode behind a text.
def after (mode : Mode) (text : List Char) : Mode :=
  text.foldl next mode

@[simp] theorem after_nil (mode : Mode) : mode.after [] = mode := rfl

@[simp] theorem after_cons (mode : Mode) (c : Char) (text : List Char) :
    mode.after (c :: text) = (mode.next c).after text := rfl

theorem after_append (mode : Mode) (front back : List Char) :
    mode.after (front ++ back) = (mode.after front).after back :=
  List.foldl_append

theorem afterCode_ne_escape (c quote : Char) : afterCode c ≠ .escape quote := by
  unfold afterCode
  split
  · exact nofun
  · split
    · exact nofun
    · exact nofun

theorem eq_of_next_escape {mode : Mode} {c quote : Char} (h : mode.next c = .escape quote) :
    c = '\\' := by
  cases mode with
  | code => exact absurd h (afterCode_ne_escape c quote)
  | slash =>
      simp only [next] at h
      split at h
      · cases h
      · split at h
        · cases h
        · exact absurd h (afterCode_ne_escape c quote)
  | lineComment =>
      simp only [next] at h
      split at h <;> cases h
  | blockComment =>
      simp only [next] at h
      split at h <;> cases h
  | star =>
      simp only [next] at h
      split at h
      · cases h
      · split at h <;> cases h
  | literal quote' =>
      simp only [next] at h
      split at h
      · assumption
      · split at h <;> cases h
  | escape quote' => cases h

-- A backslash in a literal is the only character that leads to an escape.
theorem getLast?_of_escape {quote : Char} {text : List Char}
    (h : Mode.code.after text = .escape quote) : text.getLast? = some '\\' := by
  rcases List.eq_nil_or_concat text with rfl | ⟨front, c, rfl⟩
  · cases h
  · rw [List.concat_eq_append, after_append, after_cons, after_nil] at h
    rw [List.concat_eq_append, List.getLast?_concat]
    rw [eq_of_next_escape h]

theorem next_break {mode : Mode} (h : ∀ quote, mode ≠ .escape quote) :
    mode.next '\n' = .code ∨ mode.next '\n' = .blockComment := by
  cases mode with
  | code => exact .inl rfl
  | slash => exact .inl rfl
  | lineComment => exact .inl rfl
  | blockComment => exact .inr rfl
  | star => exact .inr rfl
  | literal quote => exact .inl rfl
  | escape quote => exact absurd rfl (h quote)

def InBlockComment (mode : Mode) : Prop :=
  mode = .blockComment ∨ mode = .star

end Mode

-- The mode and depth behind a text that does not close the block around it.
def within? : Mode → Nat → List Char → Option (Mode × Nat)
  | mode, depth, [] => some (mode, depth)
  | mode, depth, c :: rest =>
    match mode.brace? c, depth with
    | some .closing, 0 => none
    | some .closing, outer + 1 => within? (mode.next c) outer rest
    | some .opening, depth => within? (mode.next c) (depth + 1) rest
    | none, depth => within? (mode.next c) depth rest

theorem within?_of_no_brace {mode : Mode} {c : Char} (h : mode.brace? c = none) (depth : Nat)
    (rest : List Char) : within? mode depth (c :: rest) = within? (mode.next c) depth rest := by
  simp only [within?, h]

theorem within?_append (mode : Mode) (depth : Nat) (front back : List Char) :
    within? mode depth (front ++ back) =
      (within? mode depth front).bind fun state => within? state.1 state.2 back := by
  fun_induction within? mode depth front with
  | case1 => rfl
  | case2 mode c rest hbrace => simp only [List.cons_append, within?, hbrace, Option.bind_none]
  | case3 mode c rest outer hbrace ih => simp only [List.cons_append, within?, hbrace, ih]
  | case4 mode depth c rest hbrace ih => simp only [List.cons_append, within?, hbrace, ih]
  | case5 mode depth c rest hbrace ih => simp only [List.cons_append, within?, hbrace, ih]

theorem mode_of_within? {mode mode' : Mode} {depth depth' : Nat} {text : List Char}
    (h : within? mode depth text = some (mode', depth')) : mode' = mode.after text := by
  fun_induction within? mode depth text with
  | case1 =>
      cases h
      rfl
  | case2 => cases h
  | case3 mode c rest outer hbrace ih => exact ih h
  | case4 mode depth c rest hbrace ih => exact ih h
  | case5 mode depth c rest hbrace ih => exact ih h

-- The mode behind a text, and how much deeper the text ends than it begins.
def nested (state : Mode × Int) (text : List Char) : Mode × Int :=
  text.foldl (fun state c => (state.1.next c, state.2 + Brace.step (state.1.brace? c))) state

theorem nested_append (state : Mode × Int) (front back : List Char) :
    nested state (front ++ back) = nested (nested state front) back :=
  List.foldl_append

theorem balance_eq (line : List Char) : balance line = (nested (.code, 0) line).2 := rfl

theorem nested_of_within? {mode mode' : Mode} {depth depth' : Nat} {text : List Char}
    (h : within? mode depth text = some (mode', depth')) (n : Int) :
    nested (mode, n) text = (mode', n + depth' - depth) := by
  fun_induction within? mode depth text generalizing n with
  | case1 =>
      cases h
      simp [nested]
  | case2 => cases h
  | case3 mode c rest outer hbrace ih =>
      have hrest := ih h (n - 1)
      simp only [nested, List.foldl_cons, hbrace, Brace.step] at hrest ⊢
      rw [← Int.sub_eq_add_neg, hrest]
      congr 1
      omega
  | case4 mode depth c rest hbrace ih =>
      have hrest := ih h (n + 1)
      simp only [nested, List.foldl_cons, hbrace, Brace.step] at hrest ⊢
      rw [hrest]
      congr 1
      omega
  | case5 mode depth c rest hbrace ih =>
      have hrest := ih h n
      simp only [nested, List.foldl_cons, hbrace, Brace.step, Int.add_zero] at hrest ⊢
      exact hrest

theorem balance_of_within? {mode : Mode} {text : List Char}
    (h : within? .code 0 text = some (mode, 0)) : balance text = 0 := by
  rw [balance_eq, nested_of_within? h]
  rfl

-- A text without braces is as deep at its end as at its beginning.
theorem within?_of_not_mem {text : List Char} (hopening : '{' ∉ text) (hclosing : '}' ∉ text)
    (mode : Mode) (depth : Nat) : within? mode depth text = some (mode.after text, depth) := by
  induction text generalizing mode with
  | nil => rfl
  | cons c text ih =>
      obtain ⟨hc, hopening⟩ := List.ne_and_not_mem_of_not_mem_cons hopening
      obtain ⟨hc', hclosing⟩ := List.ne_and_not_mem_of_not_mem_cons hclosing
      have hbrace : mode.brace? c = none := by
        unfold Mode.brace?
        rw [if_neg hc.symm, if_neg hc'.symm, ite_self]
      rw [within?_of_no_brace hbrace, ih hopening hclosing, Mode.after_cons]

theorem balance_of_not_mem {text : List Char} (hopening : '{' ∉ text) (hclosing : '}' ∉ text) :
    balance text = 0 :=
  balance_of_within? (within?_of_not_mem hopening hclosing .code 0)

theorem Mode.brace?_return (mode : Mode) : mode.brace? '\r' = none := by
  cases mode <;> rfl

theorem Mode.brace?_break (mode : Mode) : mode.brace? '\n' = none := by
  cases mode <;> rfl

theorem balance_return (line : List Char) : balance (line ++ ['\r']) = balance line := by
  rw [balance_eq, nested_append, balance_eq]
  simp [nested, Mode.brace?_return, Brace.step]

-- What was seen before only stands in front of the block.
theorem enclosedFrom_seen (mode : Mode) (depth : Nat) (seen text : List Char) :
    enclosedFrom mode depth seen text =
      (enclosedFrom mode depth [] text).map fun block => (seen.reverse ++ block.1, block.2) := by
  induction text generalizing mode depth seen with
  | nil => rfl
  | cons c rest ih =>
      have hstep (mode : Mode) (depth : Nat) : enclosedFrom mode depth (c :: seen) rest =
          (enclosedFrom mode depth [c] rest).map fun block => (seen.reverse ++ block.1, block.2) := by
        rw [ih mode depth (c :: seen), ih mode depth [c], Option.map_map]
        congr 1
        funext block
        simp
      simp only [enclosedFrom]
      split
      · simp
      · exact hstep _ _
      · exact hstep _ _
      · exact hstep _ _

theorem eq_of_brace?_closing {mode : Mode} {c : Char} (h : mode.brace? c = some .closing) :
    c = '}' := by
  unfold Mode.brace? at h
  split at h
  · cases h
  · split at h
    · cases h
    · split at h
      · assumption
      · cases h

-- A block and what follows it are the text, but for the brace between them.
theorem eq_of_enclosedFrom {mode : Mode} {depth : Nat} {seen text body after : List Char}
    (h : enclosedFrom mode depth seen text = some (body, after)) :
    seen.reverse ++ text = body ++ '}' :: after := by
  fun_induction enclosedFrom mode depth seen text with
  | case1 => cases h
  | case2 mode seen c rest hbrace =>
      cases h
      rw [eq_of_brace?_closing hbrace]
  | case3 mode seen c rest outer hbrace ih | case4 mode depth seen c rest hbrace ih
  | case5 mode depth seen c rest hbrace ih =>
      rw [← ih h, List.reverse_cons, List.append_assoc, List.singleton_append]

theorem enclosedFrom_cons (mode : Mode) (depth : Nat) (c : Char) (rest : List Char) :
    enclosedFrom mode depth [] (c :: rest) =
      match mode.brace? c, depth with
      | some .closing, 0 => some ([], rest)
      | some .closing, outer + 1 =>
        (enclosedFrom (mode.next c) outer [] rest).map fun block => (c :: block.1, block.2)
      | some .opening, depth =>
        (enclosedFrom (mode.next c) (depth + 1) [] rest).map fun block => (c :: block.1, block.2)
      | none, depth =>
        (enclosedFrom (mode.next c) depth [] rest).map fun block => (c :: block.1, block.2) := by
  simp only [enclosedFrom]
  cases mode.brace? c with
  | none => exact enclosedFrom_seen _ _ _ _
  | some brace =>
      cases brace with
      | opening => exact enclosedFrom_seen _ _ _ _
      | closing =>
          cases depth with
          | zero => rfl
          | succ outer => exact enclosedFrom_seen _ _ _ _

theorem enclosedFrom_of_no_brace {mode : Mode} {c : Char} (h : mode.brace? c = none) (depth : Nat)
    (rest : List Char) : enclosedFrom mode depth [] (c :: rest) =
      (enclosedFrom (mode.next c) depth [] rest).map fun block => (c :: block.1, block.2) := by
  rw [enclosedFrom_cons, h]

-- A text that leaves a block open is read on behind it.
theorem enclosedFrom_of_within? {mode mode' : Mode} {depth depth' : Nat} {text : List Char}
    (h : within? mode depth text = some (mode', depth')) (more : List Char) :
    enclosedFrom mode depth [] (text ++ more) =
      (enclosedFrom mode' depth' [] more).map fun block => (text ++ block.1, block.2) := by
  fun_induction within? mode depth text with
  | case1 =>
      cases h
      simp
  | case2 => cases h
  | case3 mode c rest outer hbrace ih | case4 mode outer c rest hbrace ih
  | case5 mode outer c rest hbrace ih =>
      simp only [List.cons_append, enclosedFrom, hbrace]
      rw [enclosedFrom_seen, ih h, Option.map_map]
      rfl

-- A text that does not leave a block open closes it.
theorem enclosedFrom_of_not_within {mode : Mode} {depth : Nat} {seen text : List Char}
    (h : within? mode depth text = none) :
    ∃ body after, enclosedFrom mode depth seen text = some (body, after) := by
  fun_induction enclosedFrom mode depth seen text with
  | case1 => cases h
  | case2 mode seen c rest hbrace => exact ⟨_, _, rfl⟩
  | case3 mode seen c rest outer hbrace ih | case4 mode depth seen c rest hbrace ih
  | case5 mode depth seen c rest hbrace ih =>
      simp only [within?, hbrace] at h
      exact ih h

theorem exists_enclosed?_of_not_within {text : List Char} (h : within? .code 0 text = none) :
    ∃ body after, enclosed? text = some (body, after) :=
  enclosedFrom_of_not_within h

-- A block that is closed within a text is closed at the same place whatever follows the text.
theorem enclosedFrom_append {mode : Mode} {depth : Nat} {seen text body after : List Char}
    (h : enclosedFrom mode depth seen text = some (body, after)) (more : List Char) :
    enclosedFrom mode depth seen (text ++ more) = some (body, after ++ more) := by
  fun_induction enclosedFrom mode depth seen text with
  | case1 => cases h
  | case2 mode seen c rest hbrace =>
      cases h
      simp only [List.cons_append, enclosedFrom, hbrace]
  | case3 mode seen c rest outer hbrace ih =>
      simp only [List.cons_append, enclosedFrom, hbrace]
      exact ih h
  | case4 mode depth seen c rest hbrace ih =>
      simp only [List.cons_append, enclosedFrom, hbrace]
      exact ih h
  | case5 mode depth seen c rest hbrace ih =>
      simp only [List.cons_append, enclosedFrom, hbrace]
      exact ih h

-- A line break at the end of a text closes no block.
theorem enclosed?_finalBreak (text : List Char) :
    (enclosed? (text ++ ['\n'])).map Prod.fst = (enclosed? text).map Prod.fst := by
  cases hwithin : within? .code 0 text with
  | none =>
      obtain ⟨body, after, hclosed⟩ := exists_enclosed?_of_not_within hwithin
      have happend : enclosed? (text ++ ['\n']) = some (body, after ++ ['\n']) :=
        enclosedFrom_append hclosed ['\n']
      rw [happend, hclosed]
      rfl
  | some state =>
      have hbreak : enclosedFrom state.1 state.2 [] ['\n'] = none := by
        rw [enclosedFrom_of_no_brace (state.1.brace?_break)]
        rfl
      have hopen : enclosed? (text ++ ['\n']) = none := by
        rw [enclosed?, enclosedFrom_of_within? hwithin, hbreak, Option.map_none]
      have halone := enclosedFrom_of_within? hwithin []
      rw [List.append_nil, enclosedFrom, Option.map_none] at halone
      rw [hopen, enclosed?, halone]

-- Within a line comment, and within a block comment, no brace counts.
theorem within?_lineComment {text : List Char} (h : '\n' ∉ text) (depth : Nat) :
    within? .lineComment depth text = some (.lineComment, depth) := by
  induction text with
  | nil => rfl
  | cons c text ih =>
      obtain ⟨hc, htext⟩ := List.ne_and_not_mem_of_not_mem_cons h
      have hnext : Mode.lineComment.next c = .lineComment := if_neg (Ne.symm hc)
      rw [within?_of_no_brace rfl, hnext, ih htext]

theorem within?_blockComment {text : List Char} (h : ¬['*', '/'] <:+: text) (depth : Nat) :
    ∃ mode : Mode, mode.InBlockComment ∧
      within? .blockComment depth text = some (mode, depth) := by
  suffices hboth : (¬['*', '/'] <:+: text → ∃ mode : Mode, mode.InBlockComment ∧
      within? .blockComment depth text = some (mode, depth)) ∧
      (¬['*', '/'] <:+: '*' :: text → ∃ mode : Mode, mode.InBlockComment ∧
      within? .star depth text = some (mode, depth)) from hboth.1 h
  clear h
  induction text with
  | nil => exact ⟨fun _ => ⟨.blockComment, .inl rfl, rfl⟩, fun _ => ⟨.star, .inr rfl, rfl⟩⟩
  | cons c text ih =>
      obtain ⟨hblock, hstar⟩ := ih
      have hrest : ¬['*', '/'] <:+: c :: text → ∃ mode : Mode, mode.InBlockComment ∧
          within? (if c = '*' then .star else .blockComment) depth text = some (mode, depth) := by
        intro h
        split
        · rename_i hc
          exact hstar (hc ▸ h)
        · exact hblock fun hpart => h (hpart.trans (List.infix_cons (List.infix_refl text)))
      constructor
      · intro h
        rw [within?_of_no_brace rfl]
        exact hrest h
      · intro h
        have hc : c ≠ '/' := by
          rintro rfl
          exact h (List.prefix_append ['*', '/'] text).isInfix
        rw [within?_of_no_brace rfl, Mode.next, if_neg hc]
        exact hrest fun hpart => h (hpart.trans (List.infix_cons (List.infix_refl (c :: text))))

end TypeAtlas.Dump
