import TypeAtlas.Proofs.Dump.Piece

namespace TypeAtlas.Dump

open Text

-- How much deeper a text is behind some of its braces than before them.
def height (braces : List (Nat × Brace)) : Int :=
  (braces.countP fun brace => brace.2 == .opening : Int) -
    braces.countP fun brace => brace.2 == .closing

theorem height_nil : height [] = 0 := rfl

theorem height_cons (offset : Nat) (brace : Brace) (rest : List (Nat × Brace)) :
    height ((offset, brace) :: rest) = Brace.step (some brace) + height rest := by
  cases brace <;> simp [height, Brace.step] <;> omega

theorem height_append (front back : List (Nat × Brace)) :
    height (front ++ back) = height front + height back := by
  simp only [height, List.countP_append]
  omega

-- Braces of which the last, and none before it, brings the depth back to where it was.
structure Returns (word : List (Nat × Brace)) : Prop where
  level : height word = 0
  inside : ∀ front, front <+: word → front ≠ [] → front ≠ word → 0 < height front

-- The braces up to a byte offset.
def upTo (last : Nat) (braces : List (Nat × Brace)) : List (Nat × Brace) :=
  braces.filter fun brace => brace.1 ≤ last

-- What makes the brace at `closing` the one that closes the block opened at `opening`.
structure Closes (text : List Char) (opening closing : Nat) : Prop where
  opens : (encode text)[opening]? = some '{'.toUInt8
  closes : (encode text)[closing]? = some '}'.toUInt8
  behind : opening < closing
  ends : ∃ inner, upTo closing (bracesFrom text opening) =
    (opening, .opening) :: inner ++ [(closing, .closing)]
  returns : Returns (upTo closing (bracesFrom text opening))
  nested : ∀ i, opening < i → i < closing → (i, .opening) ∈ bracesFrom text opening →
    ∃ k, matchingBrace? text i = some k ∧ i < k ∧ k < closing
  alone : ∀ other, SameBytes opening closing text other →
    matchingBrace? other opening = some closing

theorem counted_of_brace {mode : Mode} {c : Char} {brace : Brace} (h : mode.brace? c = some brace)
    (offset : Nat) (rest : List Char) :
    counted offset mode (c :: rest) =
      (offset, brace) :: counted (offset + c.utf8Size) (mode.next c) rest := by
  rw [counted, h]
  rfl

-- That some braces, from a depth on, never lead below zero and end at a certain depth.
def Stays (depth depth' : Nat) (braces : List (Nat × Brace)) : Prop :=
  depth + height braces = depth' ∧ ∀ front, front <+: braces → 0 ≤ depth + height front

theorem Stays.cons {depth depth' inner offset : Nat} {brace : Brace} {rest : List (Nat × Brace)}
    (h : Stays inner depth' rest) (hinner : (depth : Int) + Brace.step (some brace) = inner) :
    Stays depth depth' ((offset, brace) :: rest) := by
  obtain ⟨hlevel, hfronts⟩ := h
  refine ⟨?_, ?_⟩
  · rw [height_cons]
    omega
  · intro front hfront
    rcases List.prefix_cons_iff.mp hfront with rfl | ⟨more, rfl, hmore⟩
    · rw [height_nil]
      omega
    · have hlow := hfronts more hmore
      rw [height_cons]
      omega

-- A text that leaves the block around it open is nowhere above that block, and its braces tell the
-- depth it ends at.
theorem stays_counted {mode mode' : Mode} {depth depth' : Nat} {text : List Char}
    (h : within? mode depth text = some (mode', depth')) (offset : Nat) :
    Stays depth depth' (counted offset mode text) := by
  fun_induction within? mode depth text generalizing offset with
  | case1 mode depth =>
      cases h
      refine ⟨by rw [counted, height_nil, Int.add_zero], ?_⟩
      intro front hfront
      rw [List.prefix_nil.mp hfront, height_nil]
      omega
  | case2 => cases h
  | case3 mode c rest outer hbrace ih =>
      rw [counted_of_brace hbrace]
      exact (ih h _).cons (by simp only [Brace.step]; omega)
  | case4 mode depth c rest hbrace ih =>
      rw [counted_of_brace hbrace]
      exact (ih h _).cons (by simp [Brace.step])
  | case5 mode depth c rest hbrace ih =>
      rw [counted_of_no_brace hbrace]
      exact ih h _

-- The body of a block leaves it open, up to a brace that counts.
theorem within?_of_enclosedFrom {mode : Mode} {depth : Nat} {seen text body after : List Char}
    (h : enclosedFrom mode depth seen text = some (body, after)) :
    ∃ inner mode', body = seen.reverse ++ inner ∧ within? mode depth inner = some (mode', 0) ∧
      mode'.brace? '}' = some .closing := by
  fun_induction enclosedFrom mode depth seen text with
  | case1 => cases h
  | case2 mode seen c rest hbrace =>
      cases h
      refine ⟨[], mode, (List.append_nil _).symm, rfl, ?_⟩
      rwa [eq_of_brace?_closing hbrace] at hbrace
  | case3 mode seen c rest depth hbrace ih | case4 mode seen c rest depth hbrace ih
  | case5 mode seen c rest depth hbrace ih =>
      obtain ⟨inner, mode', rfl, hwithin, hclosing⟩ := ih h
      refine ⟨c :: inner, mode', ?_, ?_, hclosing⟩
      · simp
      · simp only [within?, hbrace, hwithin]

theorem within?_body {text body after : List Char} (h : enclosed? text = some (body, after)) :
    ∃ mode : Mode, within? .code 0 body = some (mode, 0) ∧ mode.brace? '}' = some .closing := by
  obtain ⟨inner, mode, hbody, hwithin, hclosing⟩ := within?_of_enclosedFrom h
  obtain rfl : body = inner := hbody
  exact ⟨mode, hwithin, hclosing⟩

-- A block is the same whatever follows its closing brace.
theorem enclosed?_body {text body after : List Char} (h : enclosed? text = some (body, after))
    (more : List Char) : enclosed? (body ++ '}' :: more) = some (body, more) := by
  obtain ⟨mode, hwithin, hclosing⟩ := within?_body h
  rw [enclosed?, enclosedFrom_of_within? hwithin, enclosedFrom_cons, hclosing]
  simp

-- What stays within a block stays within a block that is deeper, and ends deeper by as much.
theorem within?_deeper {mode mode' : Mode} {depth depth' : Nat} {text : List Char}
    (h : within? mode depth text = some (mode', depth')) (more : Nat) :
    within? mode (depth + more) text = some (mode', depth' + more) := by
  fun_induction within? mode depth text with
  | case1 =>
      cases h
      rfl
  | case2 => cases h
  | case3 mode c rest outer hbrace ih =>
      rw [Nat.succ_add]
      simp only [within?, hbrace]
      exact ih h
  | case4 mode depth c rest hbrace ih =>
      simp only [within?, hbrace]
      rw [Nat.add_right_comm]
      exact ih h
  | case5 mode depth c rest hbrace ih =>
      simp only [within?, hbrace]
      exact ih h

theorem exists_of_mem_counted {mode : Mode} {text : List Char} {offset i : Nat} {brace : Brace}
    (h : (i, brace) ∈ counted offset mode text) :
    ∃ front c rest, text = front ++ c :: rest ∧ i = offset + byteSize front ∧
      (mode.after front).brace? c = some brace := by
  induction text generalizing offset mode with
  | nil => cases h
  | cons c text ih =>
      rw [counted] at h
      rcases List.mem_append.mp h with h | h
      · obtain ⟨found, hfound, hi⟩ := Option.map_eq_some_iff.mp (Option.mem_toList.mp h)
        cases hi
        exact ⟨[], c, text, rfl, rfl, hfound⟩
      · obtain ⟨front, d, rest, rfl, rfl, hbrace⟩ := ih h
        refine ⟨c :: front, d, rest, rfl, ?_, hbrace⟩
        rw [byteSize_cons, Nat.add_assoc]

theorem bounds_of_mem_counted {mode : Mode} {text : List Char} {offset i : Nat} {brace : Brace}
    (h : (i, brace) ∈ counted offset mode text) : offset ≤ i ∧ i < offset + byteSize text := by
  obtain ⟨front, c, rest, rfl, rfl, -⟩ := exists_of_mem_counted h
  have hpos := Char.utf8Size_pos c
  simp only [byteSize_append, byteSize_cons]
  omega

section

variable {mode : Mode} {text : List Char} {offset : Nat} {p : Nat × Brace → Bool}

theorem filter_counted_eq_self
    (h : ∀ i brace, offset ≤ i → i < offset + byteSize text → p (i, brace) = true) :
    (counted offset mode text).filter p = counted offset mode text := by
  apply List.filter_eq_self.mpr
  rintro ⟨i, brace⟩ hmem
  obtain ⟨hlow, hhigh⟩ := bounds_of_mem_counted hmem
  exact h i brace hlow hhigh

theorem filter_counted_eq_nil (h : ∀ i brace, offset ≤ i → p (i, brace) = false) :
    (counted offset mode text).filter p = [] := by
  apply List.filter_eq_nil_iff.mpr
  rintro ⟨i, brace⟩ hmem
  obtain ⟨hlow, -⟩ := bounds_of_mem_counted hmem
  rw [h i brace hlow]
  exact Bool.false_ne_true

end

def Brace.char : Brace → Char
  | opening => '{'
  | closing => '}'

theorem brace?_eq_some_iff {mode : Mode} {c : Char} {brace : Brace} :
    mode.brace? c = some brace ↔ mode.isCode = true ∧ c = brace.char := by
  unfold Mode.brace?
  cases mode.isCode with
  | false => simp
  | true =>
      by_cases hopening : c = '{'
      · subst hopening
        cases brace <;> simp [Brace.char]
      · by_cases hclosing : c = '}'
        · subst hclosing
          cases brace <;> simp [Brace.char]
        · cases brace <;> simp [Brace.char, hopening, hclosing]

-- The mode behind a brace that counts is that of code, so reading can begin anew there.
theorem next_of_brace? {mode : Mode} {c : Char} {brace : Brace} (h : mode.brace? c = some brace) :
    mode.next c = .code := by
  obtain ⟨hcode, rfl⟩ := brace?_eq_some_iff.mp h
  cases mode with
  | code => cases brace <;> rfl
  | slash => cases brace <;> rfl
  | _ => cases hcode

-- What leads from inside a block to its end closes the block.
theorem exists_enclosed?_of_deeper {mode : Mode} {depth : Nat} {text : List Char}
    (h : within? .code (depth + 1) text = some (mode, 0)) :
    ∃ body after, enclosed? text = some (body, after) := by
  apply exists_enclosed?_of_not_within
  cases hfound : within? .code 0 text with
  | none => rfl
  | some state =>
      have hdeeper := within?_deeper hfound (depth + 1)
      rw [Nat.zero_add, h] at hdeeper
      cases hdeeper

-- A block opened within a body is closed within it. Behind the inner brace the reading of the body is
-- in code and one block deeper, and it gets back to no depth at the end.
theorem exists_enclosed?_behind_brace {mode mode' : Mode} {front rest : List Char}
    (h : within? mode 0 (front ++ '{' :: rest) = some (mode', 0))
    (hbrace : (mode.after front).brace? '{' = some .opening) :
    ∃ body after, enclosed? rest = some (body, after) := by
  rw [within?_append] at h
  obtain ⟨⟨inner, depth⟩, hfront, hrest⟩ := Option.bind_eq_some_iff.mp h
  rw [mode_of_within? hfront] at hrest
  simp only [within?, hbrace, next_of_brace? hbrace] at hrest
  exact exists_enclosed?_of_deeper hrest

section

variable {above rest : List Char} {opening : Nat} (habove : byteSize above = opening)
include habove

theorem matchingBrace?_opening :
    matchingBrace? (above ++ '{' :: rest) opening =
      (enclosed? rest).map fun block => opening + 1 + byteSize block.1 := by
  have hdrop : dropBytes? opening (above ++ '{' :: rest) = some ('{' :: rest) :=
    dropBytes?_eq_some_iff.mpr ⟨above, rfl, habove⟩
  rw [matchingBrace?, hdrop]
  exact if_pos rfl

theorem bracesFrom_opening :
    bracesFrom (above ++ '{' :: rest) opening =
      (opening, .opening) :: counted (opening + 1) .code rest := by
  have hdrop : dropBytes? opening (above ++ '{' :: rest) = some ('{' :: rest) :=
    dropBytes?_eq_some_iff.mpr ⟨above, rfl, habove⟩
  rw [bracesFrom, hdrop]
  exact bracesAmong_pieces opening ('{' :: rest)

end

-- A block in a text: what stands above its opening brace, its body, and what stands below.
theorem matchingBrace?_eq_some_iff {text : List Char} {opening closing : Nat} :
    matchingBrace? text opening = some closing ↔
      ∃ above body below, text = above ++ '{' :: (body ++ '}' :: below) ∧
        byteSize above = opening ∧ closing = opening + 1 + byteSize body ∧
        enclosed? (body ++ '}' :: below) = some (body, below) := by
  constructor
  · intro h
    rw [matchingBrace?] at h
    split at h
    · rename_i c rest hdrop
      obtain ⟨above, rfl, habove⟩ := dropBytes?_eq_some_iff.mp hdrop
      split at h
      · rename_i hc
        obtain ⟨⟨body, below⟩, hblock, hclosing⟩ := Option.map_eq_some_iff.mp h
        have hrest : rest = body ++ '}' :: below := eq_of_enclosedFrom hblock
        subst hc hrest
        exact ⟨above, body, below, rfl, habove, hclosing.symm, hblock⟩
      · cases h
    · cases h
  · rintro ⟨above, body, below, rfl, habove, rfl, hblock⟩
    rw [matchingBrace?_opening habove, hblock]
    rfl

theorem Stays.returns {inner : List (Nat × Brace)} (h : Stays 0 0 inner) (opening closing : Nat) :
    Returns ((opening, .opening) :: inner ++ [(closing, .closing)]) := by
  obtain ⟨hlevel, hfronts⟩ := h
  refine ⟨?_, ?_⟩
  · rw [List.cons_append, height_cons, height_append, height_cons, height_nil]
    simp only [Brace.step]
    omega
  · intro front hfront hnil hall
    rw [List.cons_append] at hfront hall
    rcases List.prefix_cons_iff.mp hfront with rfl | ⟨more, rfl, hmore⟩
    · exact absurd rfl hnil
    · rcases List.prefix_concat_iff.mp hmore with rfl | hmore
      · exact absurd rfl hall
      · have hlow := hfronts more hmore
        rw [height_cons]
        simp only [Brace.step]
        omega

section

variable {above body below : List Char} {opening : Nat} (habove : byteSize above = opening)
  (hblock : enclosed? (body ++ '}' :: below) = some (body, below))
include habove hblock

theorem upTo_bracesFrom :
    upTo (opening + 1 + byteSize body) (bracesFrom (above ++ '{' :: (body ++ '}' :: below)) opening) =
      (opening, .opening) :: counted (opening + 1) .code body ++
        [(opening + 1 + byteSize body, .closing)] := by
  obtain ⟨mode, hwithin, hclosing⟩ := within?_body hblock
  have hpos := Char.utf8Size_pos '}'
  rw [bracesFrom_opening habove, counted_append, ← mode_of_within? hwithin,
    counted_of_brace hclosing, upTo, List.filter_cons_of_pos (by simp; omega), List.filter_append,
    filter_counted_eq_self, List.filter_cons_of_pos (by simp), filter_counted_eq_nil]
  · rfl
  · intro i brace hlow
    exact decide_eq_false (by omega)
  · intro i brace _ hhigh
    exact decide_eq_true (by omega)

-- A block within a block is closed before the block around it is.
theorem matchingBrace?_inside {i : Nat} (hlow : opening < i) (hhigh : i < opening + 1 + byteSize body)
    (hmem : (i, .opening) ∈ bracesFrom (above ++ '{' :: (body ++ '}' :: below)) opening) :
    ∃ k, matchingBrace? (above ++ '{' :: (body ++ '}' :: below)) i = some k ∧ i < k ∧
      k < opening + 1 + byteSize body := by
  obtain ⟨mode, hwithin, -⟩ := within?_body hblock
  have hbody : (i, .opening) ∈ counted (opening + 1) .code body := by
    rw [bracesFrom_opening habove, counted_append] at hmem
    rcases List.mem_cons.mp hmem with heq | hmem
    · cases heq
      omega
    · rcases List.mem_append.mp hmem with hmem | hmem
      · exact hmem
      · have hbounds := bounds_of_mem_counted hmem
        omega
  obtain ⟨front, c, rest, rfl, rfl, hbrace⟩ := exists_of_mem_counted hbody
  obtain ⟨-, rfl⟩ := brace?_eq_some_iff.mp hbrace
  obtain ⟨inner, after, hfound⟩ := exists_enclosed?_behind_brace hwithin hbrace
  have hrest : rest = inner ++ '}' :: after := eq_of_enclosedFrom hfound
  subst hrest
  refine ⟨opening + 1 + byteSize front + 1 + byteSize inner, ?_, ?_, ?_⟩
  · refine matchingBrace?_eq_some_iff.mpr
      ⟨above ++ '{' :: front, inner, after ++ '}' :: below, ?_, ?_, rfl, enclosed?_body hfound _⟩
    · simp [Brace.char]
    · have hone : ('{' : Char).utf8Size = 1 := rfl
      rw [byteSize_append, byteSize_cons, hone]
      omega
  · omega
  · simp only [byteSize_append, byteSize_cons]
    have hone : Brace.opening.char.utf8Size = 1 := rfl
    have hpos := Char.utf8Size_pos '}'
    omega

theorem matchingBrace?_alone {other : List Char}
    (hsame : SameBytes opening (opening + 1 + byteSize body) (above ++ '{' :: (body ++ '}' :: below))
      other) :
    matchingBrace? other opening = some (opening + 1 + byteSize body) := by
  have htext : above ++ '{' :: (body ++ '}' :: below) =
      above ++ ('{' :: (body ++ ['}']) ++ below) := by
    simp
  have hlast : byteSize above + byteSize ('{' :: (body ++ ['}'])) ≤
      opening + 1 + byteSize body + 1 := by
    have hopening : ('{' : Char).utf8Size = 1 := rfl
    have hclosing : ('}' : Char).utf8Size = 1 := rfl
    simp only [byteSize_cons, byteSize_append, byteSize_nil, hopening, hclosing, habove]
    omega
  subst habove
  rw [htext] at hsame
  obtain ⟨above', below', rfl, habove⟩ := hsame.exists_middle (by decide) hlast
  refine matchingBrace?_eq_some_iff.mpr
    ⟨above', body, below', ?_, habove, rfl, enclosed?_body hblock below'⟩
  simp

end

theorem closes_of_matchingBrace? {text : List Char} {opening closing : Nat}
    (h : matchingBrace? text opening = some closing) : Closes text opening closing := by
  obtain ⟨above, body, below, rfl, habove, rfl, hblock⟩ := matchingBrace?_eq_some_iff.mp h
  obtain ⟨mode, hwithin, hclosing⟩ := within?_body hblock
  have hword := upTo_bracesFrom habove hblock
  refine ⟨?_, ?_, by omega, ⟨_, hword⟩, ?_, ?_, ?_⟩
  · subst habove
    exact getElem?_encode_append (by decide) above _
  · have hplace : byteSize (above ++ '{' :: body) = opening + 1 + byteSize body := by
      have hone : ('{' : Char).utf8Size = 1 := rfl
      rw [byteSize_append, byteSize_cons, hone, habove]
      omega
    have htext : above ++ '{' :: (body ++ '}' :: below) = above ++ '{' :: body ++ '}' :: below := by
      simp
    rw [htext, ← hplace]
    exact getElem?_encode_append (by decide) _ below
  · rw [hword]
    exact (stays_counted hwithin _).returns opening _
  · intro i hlow hhigh hmem
    exact matchingBrace?_inside habove hblock hlow hhigh hmem
  · intro other hsame
    exact matchingBrace?_alone habove hblock hsame

-- Where an opening brace has no match, the depth never comes back to where it was.
theorem height_of_unmatched {text : List Char} {opening : Nat} (h : matchingBrace? text opening = none)
    (hbrace : (encode text)[opening]? = some '{'.toUInt8) {front : List (Nat × Brace)}
    (hfront : front <+: bracesFrom text opening) (hnil : front ≠ []) : 0 < height front := by
  obtain ⟨above, rest, rfl, habove⟩ := exists_of_getElem?_encode (by decide) hbrace
  rw [matchingBrace?_opening habove, Option.map_eq_none_iff] at h
  rw [bracesFrom_opening habove] at hfront
  cases hwithin : within? .code 0 rest with
  | none =>
      obtain ⟨body, after, hblock⟩ := exists_enclosed?_of_not_within hwithin
      cases h.symm.trans hblock
  | some state =>
      rcases List.prefix_cons_iff.mp hfront with rfl | ⟨more, rfl, hmore⟩
      · exact absurd rfl hnil
      · have hlow := (stays_counted hwithin _).2 more hmore
        rw [height_cons]
        simp only [Brace.step]
        omega

-- Matching braces nest, and what makes them match lies between them.
theorem matchingBrace?_nested (text : List Char) (opening : Nat) :
    (∀ closing, matchingBrace? text opening = some closing → Closes text opening closing) ∧
      (matchingBrace? text opening = none → (encode text)[opening]? = some '{'.toUInt8 →
        ∀ front, front <+: bracesFrom text opening → front ≠ [] → 0 < height front) :=
  ⟨fun _ h => closes_of_matchingBrace? h,
    fun h hbrace _ hfront hnil => height_of_unmatched h hbrace hfront hnil⟩

-- Braces in comments and in literals match none.
example : matchingBrace? (braced (braced [' '] ++ " // ".toList ++ ['}', '\n'] ++ "/* ".toList ++ ['}'] ++
    " */ ".toList ++ ['\x22', '}', '\x22'])) 0 = some 21 := by
  dsimp only [String.reduceToList]
  decide +kernel

end TypeAtlas.Dump
