import TypeAtlas.Proofs.Dump.Usable

namespace TypeAtlas.Dump

open Text

def isTerminator (c : Char) : Bool :=
  c == ';' || c == '}'

-- Whether a semicolon or a closing brace stands on a line before any opening brace, and before any
-- line comment.
def isTerminated : List Char → Bool
  | [] => false
  | '/' :: '/' :: _ => false
  | c :: rest => if c = '{' then false else isTerminator c || isTerminated rest

theorem isTerminated_cons {c : Char} (hslash : c ≠ '/') (rest : List Char) :
    isTerminated (c :: rest) =
      if c = '{' then false else isTerminator c || isTerminated rest :=
  isTerminated.eq_3 c rest fun _ hc => absurd hc hslash

-- A line is terminated where the search for an opening brace fails on it, whatever stands below.
theorem isTerminated_iff {line : List Char} (h : '\n' ∉ line) :
    isTerminated line = true ↔ ∀ more, opening? false false (line ++ '\n' :: more) = none := by
  fun_induction isTerminated line with
  | case1 =>
      simp only [Bool.false_eq_true, false_iff]
      intro hnone
      cases hnone ['{']
  | case2 rest =>
      simp only [Bool.false_eq_true, false_iff]
      intro hnone
      have hrest : '\n' ∉ rest := fun hmem => h (by simp [hmem])
      have hfound := hnone ['{']
      rw [List.cons_append, List.cons_append, opening?.eq_2, opening?_comment hrest] at hfound
      cases hfound
  | case3 rest hslash =>
      simp only [Bool.false_eq_true, false_iff]
      intro hnone
      cases hnone []
  | case4 c rest hslash hbrace ih =>
      obtain ⟨hc, hrest⟩ := List.ne_and_not_mem_of_not_mem_cons h
      have hstep (more : List Char) : opening? false false (c :: rest ++ '\n' :: more) =
          if c = ';' || c = '}' then none else opening? false false (rest ++ '\n' :: more) := by
        rw [List.cons_append, opening?_cons (slashes_break hslash more), if_neg (Ne.symm hc)]
        simp [hbrace]
      simp only [hstep]
      by_cases hend : c = ';' ∨ c = '}'
      · rcases hend with rfl | rfl
        · simp [isTerminator]
        · simp [isTerminator]
      · obtain ⟨hsemicolon, hclosing⟩ := not_or.mp hend
        simp [isTerminator, hsemicolon, hclosing, ih hrest]

theorem opening?_of_isTerminated {line text : List Char} (h : '\n' ∉ line)
    (hterminated : isTerminated line = true) :
    opening? false false (line ++ behindLine text) = none := by
  rcases behindLine_cases text with hbehind | ⟨below, hbehind⟩
  · rw [hbehind, List.append_nil]
    cases lineSearch false false line with
    | finds inner _ _ found =>
        have hnone := (isTerminated_iff h).mp hterminated []
        cases hnone.symm.trans (found [])
    | fails alone _ => exact alone
    | goesOn alone _ => exact alone
  · rw [hbehind]
    exact (isTerminated_iff h).mp hterminated below

theorem exists_enclosedFrom_replicate (depth : Nat) (seen : List Char) :
    ∃ body after, enclosedFrom .code depth seen (List.replicate (depth + 1) '}') = some (body, after) := by
  induction depth generalizing seen with
  | zero => exact ⟨seen.reverse, [], rfl⟩
  | succ outer ih => exact ih ('}' :: seen)

-- Two line breaks, the end of a comment and a line break lead out of every comment and literal.
theorem after_wayOut (mode : Mode) : mode.after ['\n', '\n', '*', '/', '\n'] = .code := by
  cases mode with
  | literal quote =>
      have hbreak : (Mode.literal quote).next '\n' = .code := by simp [Mode.next]
      rw [Mode.after_cons, hbreak]
      rfl
  | escape quote =>
      have hbreak : (Mode.literal quote).next '\n' = .code := by simp [Mode.next]
      have hescape : (Mode.escape quote).next '\n' = .literal quote := rfl
      rw [Mode.after_cons, hescape, Mode.after_cons, hbreak]
      rfl
  | _ => rfl

-- Any open block is closed by some lines.
theorem exists_closing_lines (text : List Char) :
    ∃ more body after, enclosed? (text ++ '\n' :: more) = some (body, after) := by
  cases hwithin : within? .code 0 text with
  | none =>
      obtain ⟨body, after, hblock⟩ := exists_enclosed?_of_not_within hwithin
      exact ⟨[], body, after ++ ['\n'], enclosedFrom_append hblock ['\n']⟩
  | some state =>
      obtain ⟨mode, depth⟩ := state
      have hway : within? mode depth ['\n', '\n', '*', '/', '\n'] = some (.code, depth) := by
        rw [within?_of_not_mem (by decide) (by decide), after_wayOut]
      obtain ⟨body, after, hblock⟩ := exists_enclosedFrom_replicate depth []
      refine ⟨['\n', '*', '/', '\n'] ++ List.replicate (depth + 1) '}',
        text ++ (['\n', '\n', '*', '/', '\n'] ++ body), after, ?_⟩
      have hclosed := enclosedFrom_of_within? hway (List.replicate (depth + 1) '}')
      rw [hblock] at hclosed
      exact (enclosedFrom_of_within? hwithin _).trans (congrArg (Option.map _) hclosed)

-- Behind a line that is not terminated some lines make up a block.
theorem exists_body {line : List Char} (h : '\n' ∉ line) (hterminated : isTerminated line = false) :
    ∃ more body, body? (line ++ '\n' :: more) = some body := by
  simp only [body?_eq, block?]
  cases lineSearch false false line with
  | finds inner _ _ found =>
      obtain ⟨more, body, after, hblock⟩ := exists_closing_lines inner
      exact ⟨more, body, by rw [found, Option.bind_some, hblock]; rfl⟩
  | fails _ none =>
      rw [(isTerminated_iff h).mpr none] at hterminated
      cases hterminated
  | goesOn _ behind =>
      refine ⟨['{', '}'], [], ?_⟩
      rw [behind]
      rfl

-- The characters that may decide whether a line is terminated.
def marks : List Char :=
  ['/', '{', ';', '}']

theorem isTerminated_pass {c : Char} (h : c ∉ marks) (rest : List Char) :
    isTerminated (c :: rest) = isTerminated rest := by
  simp only [marks, List.mem_cons, List.not_mem_nil, or_false, not_or] at h
  obtain ⟨hslash, hbrace, hsemicolon, hclosing⟩ := h
  rw [isTerminated_cons hslash, if_neg hbrace]
  simp [isTerminator, hsemicolon, hclosing]

theorem not_mem_marks {p : Char → Bool} (hp : ∀ c ∈ marks, p c = false) {c : Char} (hc : p c = true) :
    c ∉ marks := by
  intro hmem
  rw [hp c hmem] at hc
  cases hc

theorem isTerminated_dropWhile {p : Char → Bool} (hp : ∀ c ∈ marks, p c = false) (text : List Char) :
    isTerminated (text.dropWhile p) = isTerminated text := by
  induction text with
  | nil => rfl
  | cons c rest ih =>
      rw [List.dropWhile_cons]
      split
      · rename_i hc
        rw [ih, isTerminated_pass (not_mem_marks hp hc)]
      · rfl

theorem isTerminated_name {follows : Char → Bool} (hfollows : ∀ c ∈ marks, follows c = false)
    {text name rest : List Char} (h : name? follows text = some (name, rest)) :
    isTerminated rest = isTerminated text := by
  cases text with
  | nil => cases h
  | cons c text =>
      simp only [name?] at h
      split at h
      · rename_i hc
        cases h
        have hstart : ∀ c ∈ marks, isNameStart c = false := by decide
        rw [isTerminated_dropWhile hfollows, isTerminated_pass (not_mem_marks hstart hc)]
      · cases h

theorem isTerminated_baseAfter (text : List Char) :
    isTerminated (Header.baseAfter text).2 = isTerminated text := by
  unfold Header.baseAfter
  split
  · rename_i rest
    split
    · rename_i name after hname
      rw [isTerminated_name (by decide) hname, isTerminated_dropWhile (by decide),
        isTerminated_pass (by decide)]
    · rfl
  · rfl

-- What the pattern of a header passes over without a look may terminate a line.
theorem isTerminated_withBase (stem : Header × List Char) :
    isTerminated stem.2 =
      ((stem.2.takeWhile Header.isFiller).any isTerminator ||
        isTerminated (Header.withBase stem).2) := by
  have hfiller (text : List Char) : isTerminated text =
      ((text.takeWhile Header.isFiller).any isTerminator ||
        isTerminated (text.dropWhile Header.isFiller)) := by
    induction text with
    | nil => rfl
    | cons c rest ih =>
        rw [List.takeWhile_cons, List.dropWhile_cons]
        split
        · rename_i hc
          simp only [Header.isFiller, Bool.and_eq_true, bne_iff_ne] at hc
          rw [isTerminated_cons hc.2, if_neg hc.1.2, ih, List.any_cons, Bool.or_assoc]
        · rfl
  rw [hfiller]
  exact congrArg (_ || ·) (isTerminated_baseAfter _).symm

theorem break_not_mem_withBase {line : List Char} (hline : '\n' ∉ line) {stem : Header × List Char}
    (hstem : Header.stem? line = some stem) : '\n' ∉ (Header.withBase stem).2 := by
  have hread : Header.read? line = some (Header.withBase stem) := by
    rw [Header.read?_eq, hstem]
    rfl
  exact fun hmem => hline ((Header.read?_suffix hread).subset hmem)

-- What a line declares, from the stem of its header.
theorem usable?_of_stem? {text : List Char} {stem : Header × List Char}
    (hstem : Header.stem? (lineAlone text) = some stem) :
    usable? text =
      if stem.1.isGeneric then none
      else (body? ((Header.withBase stem).2 ++ behindLine text)).map
        (Header.withBase stem).1.declaration := by
  rw [usable?, Header.read?_eq, hstem]
  rfl

-- A line that is terminated behind its header declares nothing, and a line that is not declares
-- something in front of some lines.
theorem usable?_eq_none_iff {line : List Char} {stem : Header × List Char}
    (hline : '\n' ∉ line) (hstem : Header.stem? line = some stem) :
    (∀ text, lineAlone text = line → usable? text = none) ↔
      stem.1.isGeneric = true ∨ isTerminated (Header.withBase stem).2 = true := by
  have hbreak := break_not_mem_withBase hline hstem
  constructor
  · intro hnone
    by_contra hnot
    obtain ⟨hgeneric, hterminated⟩ := not_or.mp hnot
    obtain ⟨more, body, hbody⟩ := exists_body hbreak (Bool.not_eq_true _ ▸ hterminated)
    have halone := lineAlone_line hline more
    have husable := usable?_of_stem? (halone.symm ▸ hstem)
    rw [hnone _ halone, if_neg hgeneric, behindLine_line hline, hbody] at husable
    cases husable
  · rintro hends text rfl
    rw [usable?_of_stem? hstem]
    rcases hends with hgeneric | hterminated
    · rw [if_pos hgeneric]
    · rw [body?_eq, block?, opening?_of_isTerminated hbreak hterminated]
      exact ite_self none

-- That no index lists anything for a line that reads like this one, whatever stands above and below.
def Unlisted (line : List Char) : Prop :=
  ∀ text, ∀ place ∈ (lineStarts text).inits.zip (lineStarts text),
    lineAlone place.2 = line → firstUsable? place.1 place.2 = none

theorem firstUsable?_nil (text : List Char) : firstUsable? [] text = usable? text := by
  simp only [firstUsable?, List.not_mem_nil, false_imp_iff, implies_true, decide_true]
  cases usable? text with
  | none => rfl
  | some d => rfl

theorem unlisted_iff {line : List Char} :
    Unlisted line ↔ ∀ text, lineAlone text = line → usable? text = none := by
  constructor
  · intro hunlisted text hline
    have hfirst : ([], text) ∈ (lineStarts text).inits.zip (lineStarts text) := by
      rw [lineStarts, List.inits_cons]
      exact List.mem_cons_self
    rw [← firstUsable?_nil]
    exact hunlisted text ([], text) hfirst hline
  · intro hnone text place _ hline
    rw [firstUsable?, hnone place.2 hline]
    rfl

-- An index passes over lines for which nothing is listed.
theorem Unlisted.declarations_scan {line : List Char} (h : Unlisted line) (text : List Char) :
    (Index.scan text).declarations =
      (((lineStarts text).inits.zip (lineStarts text)).filter
        fun place => lineAlone place.2 != line).filterMap fun place => firstUsable? place.1 place.2 := by
  rw [declarations_scan_eq, List.filterMap_filter]
  refine List.filterMap_congr fun place hplace => ?_
  split
  · rfl
  · rename_i hsame
    exact h text place hplace (by simpa using hsame)

-- A terminated line goes unlisted exactly where it is still terminated behind what the pattern of a
-- header reads, or has type parameters. The pattern reads past a semicolon or closing brace only
-- before the first colon, slash or opening brace.
theorem terminated_unlisted_iff {line : List Char} {stem : Header × List Char} (hline : '\n' ∉ line)
    (hstem : Header.stem? line = some stem) (hterminated : isTerminated stem.2 = true) :
    (Unlisted line ↔ stem.1.isGeneric = true ∨ isTerminated (Header.withBase stem).2 = true) ∧
      ((stem.2.takeWhile Header.isFiller).any isTerminator = false → Unlisted line) ∧
      (Unlisted line → ∀ text, (Index.scan text).declarations =
        (((lineStarts text).inits.zip (lineStarts text)).filter
          fun place => lineAlone place.2 != line).filterMap
            fun place => firstUsable? place.1 place.2) := by
  have hiff : Unlisted line ↔
      stem.1.isGeneric = true ∨ isTerminated (Header.withBase stem).2 = true :=
    unlisted_iff.trans (usable?_eq_none_iff hline hstem)
  refine ⟨hiff, ?_, Unlisted.declarations_scan⟩
  intro hfiller
  rw [isTerminated_withBase, hfiller, Bool.false_or] at hterminated
  exact hiff.mpr (.inr hterminated)

theorem orphanWithBase_unlisted : Unlisted "class Orphan : Base;".toList := by
  have hline : '\n' ∉ "class Orphan : Base;".toList := by decide +kernel
  have hstem : Header.stem? "class Orphan : Base;".toList =
      some (⟨.classType, "Orphan", false, false, none⟩, " : Base;".toList) := by
    dsimp only [String.reduceToList]
    decide +kernel
  exact (terminated_unlisted_iff hline hstem (by decide +kernel)).2.1 (by decide +kernel)

-- A header that a semicolon ends, above braces that are no block of its own.
def orphanDump : List Char :=
  "class Orphan;\n".toList ++ braced ['\n'] ++ ['\n']

theorem orphan_listed :
    (Index.scan orphanDump).declarations = [⟨.classType, "Orphan", false, none, ['\n']⟩] ∧
      ¬∀ line stem, '\n' ∉ line → Header.stem? line = some stem → isTerminated stem.2 = true →
        Unlisted line := by
  have hlisted : (Index.scan orphanDump).declarations =
      [⟨.classType, "Orphan", false, none, ['\n']⟩] := by
    dsimp only [orphanDump, String.reduceToList]
    decide +kernel
  have hstem : Header.stem? "class Orphan;".toList =
      some (⟨.classType, "Orphan", false, false, none⟩, [';']) := by
    dsimp only [String.reduceToList]
    decide +kernel
  have husable : (usable? orphanDump).isSome = true := by
    dsimp only [orphanDump, String.reduceToList]
    decide +kernel
  have halone : lineAlone orphanDump = "class Orphan;".toList := by decide +kernel
  refine ⟨hlisted, fun hall => ?_⟩
  have hunlisted := hall _ _ (by decide +kernel) hstem (by decide +kernel)
  rw [unlisted_iff.mp hunlisted orphanDump halone] at husable
  cases husable

end TypeAtlas.Dump
