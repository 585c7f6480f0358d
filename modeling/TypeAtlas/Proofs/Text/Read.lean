import TypeAtlas.Text.Read

namespace TypeAtlas.Text

-- Decides for some characters by going through them, and not through all there are.
instance decidableForallMem (chars : List Char) (p : Char → Prop) [DecidablePred p] :
    Decidable (∀ c ∈ chars, p c) :=
  List.decidableBAll p chars

-- A text that, if it goes on at all, goes on with one of some characters.
def Stops (stops text : List Char) : Prop :=
  ∀ c ∈ text.head?, c ∈ stops

theorem Stops.nil (stops : List Char) : Stops stops [] :=
  nofun

theorem Stops.cons {stops : List Char} {c : Char} (h : c ∈ stops) (rest : List Char) :
    Stops stops (c :: rest) := by
  rintro d ⟨⟩
  exact h

theorem Stops.mono {stops others text : List Char} (h : Stops stops text)
    (hothers : ∀ c ∈ stops, c ∈ others) : Stops others text :=
  fun c hc => hothers c (h c hc)

-- Characters that no word, indent or number contains.
def wordStops : List Char :=
  ['\n', '\r', '\x0c', '/']

theorem stops_or_cons (stops text : List Char) :
    Stops stops text ∨ ∃ c rest, text = c :: rest ∧ c ∉ stops := by
  cases text with
  | nil => exact .inl (.nil stops)
  | cons c rest =>
      by_cases hc : c ∈ stops
      · exact .inl (.cons hc rest)
      · exact .inr ⟨c, rest, rfl, hc⟩

-- A change to texts that leaves the characters before a stop in their places.
structure KeepsUpTo (stops : List Char) (change : List Char → List Char) : Prop where
  keeps : ∀ {c}, c ∉ stops → ∀ rest, change (c :: rest) = c :: change rest
  stopped : ∀ {text}, Stops stops text → Stops stops (change text)

theorem KeepsUpTo.append {stops more : List Char} (hmore : Stops stops more) :
    KeepsUpTo stops (· ++ more) where
  keeps _ _ := rfl
  stopped {text} htext := by
    cases text with
    | nil => exact hmore
    | cons c rest => exact .cons (htext c rfl) _

-- A text that does not go on with the characters of one class.
def EndsRun (among : Char → Bool) (text : List Char) : Prop :=
  ∀ c ∈ text.head?, among c = false

theorem EndsRun.nil (among : Char → Bool) : EndsRun among [] :=
  nofun

theorem EndsRun.cons {among : Char → Bool} {c : Char} (h : among c = false) (rest : List Char) :
    EndsRun among (c :: rest) := by
  rintro d ⟨⟩
  exact h

theorem Stops.endsRun {among : Char → Bool} {stops text : List Char} (hs : Stops stops text)
    (h : ∀ c ∈ stops, among c = false) : EndsRun among text :=
  fun c hc => h c (hs c hc)

section

variable {among : Char → Bool} {text : List Char}

-- Readers of a run read nothing where it ends.
theorem dropWhile_of_endsRun (h : EndsRun among text) : text.dropWhile among = text := by
  cases text with
  | nil => rfl
  | cons c text => rw [List.dropWhile_cons, h c rfl, if_neg Bool.false_ne_true]

theorem takeWhile_of_endsRun (h : EndsRun among text) : text.takeWhile among = [] := by
  cases text with
  | nil => rfl
  | cons c text => rw [List.takeWhile_cons, h c rfl, if_neg Bool.false_ne_true]

theorem run?_of_endsRun (h : EndsRun among text) : run? among text = none := by
  cases text with
  | nil => rfl
  | cons c text => rw [run?, h c rfl, if_neg Bool.false_ne_true]

theorem indents?_of_endsRun (h : EndsRun isIndent text) : indents? text = none := by
  cases text with
  | nil => rfl
  | cons c text => rw [indents?, h c rfl, if_neg Bool.false_ne_true]

theorem blanks?_of_endsRun (h : EndsRun isBlank text) : blanks? text = none := by
  cases text with
  | nil => rfl
  | cons c text => rw [blanks?, h c rfl, if_neg Bool.false_ne_true]

theorem name?_of_endsRun (h : EndsRun isNameStart text) (follows : Char → Bool) :
    name? follows text = none := by
  cases text with
  | nil => rfl
  | cons c text => rw [name?, h c rfl, if_neg Bool.false_ne_true]

end

theorem after?_stop {stops s : List Char} (hs : Stops stops s) {w : Char} (h : w ∉ stops)
    (word : List Char) : after? (w :: word) s = none := by
  cases s with
  | nil => rfl
  | cons c s =>
      have hne : w ≠ c := fun hw => h (hw ▸ hs c rfl)
      rw [after?, if_neg hne]

namespace KeepsUpTo

variable {p : Char → Bool} {stops : List Char} {change : List Char → List Char}

-- Readers that take no stop read the same before and after such a change.
theorem dropWhile (hchange : KeepsUpTo stops change) (h : ∀ c ∈ stops, p c = false)
    (s : List Char) : (change s).dropWhile p = change (s.dropWhile p) := by
  induction s with
  | nil => exact dropWhile_of_endsRun ((hchange.stopped (.nil stops)).endsRun h)
  | cons c s ih =>
      by_cases hc : c ∈ stops
      · have hs : Stops stops (c :: s) := .cons hc s
        rw [dropWhile_of_endsRun (hs.endsRun h),
          dropWhile_of_endsRun ((hchange.stopped hs).endsRun h)]
      · rw [hchange.keeps hc, List.dropWhile_cons, List.dropWhile_cons]
        split
        · exact ih
        · rw [hchange.keeps hc]

theorem takeWhile (hchange : KeepsUpTo stops change) (h : ∀ c ∈ stops, p c = false)
    (s : List Char) : (change s).takeWhile p = s.takeWhile p := by
  induction s with
  | nil => exact takeWhile_of_endsRun ((hchange.stopped (.nil stops)).endsRun h)
  | cons c s ih =>
      by_cases hc : c ∈ stops
      · have hs : Stops stops (c :: s) := .cons hc s
        rw [takeWhile_of_endsRun (hs.endsRun h),
          takeWhile_of_endsRun ((hchange.stopped hs).endsRun h)]
      · rw [hchange.keeps hc, List.takeWhile_cons, List.takeWhile_cons, ih]

theorem after? (hchange : KeepsUpTo stops change) {word : List Char} (h : ∀ c ∈ stops, c ∉ word)
    (s : List Char) : after? word (change s) = (after? word s).map change := by
  induction word generalizing s with
  | nil => rfl
  | cons w word ih =>
      have hw : w ∉ stops := fun hw => h w hw List.mem_cons_self
      rcases stops_or_cons stops s with hs | ⟨c, s, rfl, hc⟩
      · rw [after?_stop hs hw, after?_stop (hchange.stopped hs) hw, Option.map_none]
      · rw [hchange.keeps hc, Text.after?, Text.after?,
          ih fun c hc hword => h c hc (List.mem_cons_of_mem w hword)]
        split
        · rfl
        · rfl

theorem word? (hchange : KeepsUpTo stops change) {words : List String}
    (h : ∀ word ∈ words, ∀ c ∈ stops, c ∉ word.toList) (s : List Char) :
    word? words (change s) = (word? words s).map fun found => (found.1, change found.2) := by
  induction words with
  | nil => rfl
  | cons word words ih =>
      obtain ⟨hword, hwords⟩ := List.forall_mem_cons.mp h
      have hrest := ih hwords
      simp only [Text.word?] at hrest
      simp only [Text.word?, List.findSome?_cons, hchange.after? hword]
      cases Text.after? word.toList s with
      | none => exact hrest
      | some found => rfl

theorem indents? (hchange : KeepsUpTo stops change) (h : ∀ c ∈ stops, isIndent c = false)
    (s : List Char) : indents? (change s) = (indents? s).map change := by
  rcases stops_or_cons stops s with hs | ⟨c, s, rfl, hc⟩
  · rw [indents?_of_endsRun (hs.endsRun h), indents?_of_endsRun ((hchange.stopped hs).endsRun h),
      Option.map_none]
  · rw [hchange.keeps hc, Text.indents?, Text.indents?, hchange.dropWhile h]
    split
    · rfl
    · rfl

theorem run? (hchange : KeepsUpTo stops change) (h : ∀ c ∈ stops, p c = false) (s : List Char) :
    run? p (change s) = (run? p s).map fun found => (found.1, change found.2) := by
  rcases stops_or_cons stops s with hs | ⟨c, s, rfl, hc⟩
  · rw [run?_of_endsRun (hs.endsRun h), run?_of_endsRun ((hchange.stopped hs).endsRun h),
      Option.map_none]
  · rw [hchange.keeps hc, Text.run?, Text.run?, hchange.dropWhile h, hchange.takeWhile h]
    split
    · rfl
    · rfl

theorem name? (hchange : KeepsUpTo stops change) {follows : Char → Bool}
    (h : ∀ c ∈ stops, isNameStart c = false ∧ follows c = false) (s : List Char) :
    name? follows (change s) =
      (name? follows s).map fun found => (found.1, change found.2) := by
  have hstart : ∀ c ∈ stops, isNameStart c = false := fun c hc => (h c hc).1
  have hfollows : ∀ c ∈ stops, follows c = false := fun c hc => (h c hc).2
  rcases stops_or_cons stops s with hs | ⟨c, s, rfl, hc⟩
  · rw [name?_of_endsRun (hs.endsRun hstart),
      name?_of_endsRun ((hchange.stopped hs).endsRun hstart), Option.map_none]
  · rw [hchange.keeps hc, Text.name?, Text.name?, hchange.dropWhile hfollows,
      hchange.takeWhile hfollows]
    split
    · rfl
    · rfl

end KeepsUpTo

def inAttribute (c : Char) : Bool :=
  c != ']' && c != '\n'

theorem attribute?_cons (rest : List Char) :
    attribute? ('[' :: rest) =
      match rest.dropWhile inAttribute with
      | ']' :: rest => some rest
      | _ => none := rfl

theorem attribute?_of_ne {c : Char} (h : c ≠ '[') (rest : List Char) :
    attribute? (c :: rest) = none := by
  simp [attribute?, h]

-- A text in which an attribute that is open at its start is not closed on its line.
def LeavesOpen (more : List Char) : Prop :=
  more.head? ≠ some '[' ∧ ∀ rest, more.dropWhile inAttribute ≠ ']' :: rest

theorem attribute?_append {more : List Char} (h : LeavesOpen more) (s : List Char) :
    attribute? (s ++ more) = (attribute? s).map (· ++ more) := by
  cases s with
  | nil =>
      cases more with
      | nil => rfl
      | cons c more => exact attribute?_of_ne (fun hc => h.1 (hc ▸ rfl)) more
  | cons c s =>
      by_cases hc : c = '['
      · subst hc
        rw [List.cons_append, attribute?_cons, attribute?_cons, List.dropWhile_append]
        cases s.dropWhile inAttribute with
        | nil =>
            simp only [List.isEmpty_nil, if_true, Option.map_none]
            split
            · rename_i rest hclosed
              exact absurd hclosed (h.2 rest)
            · rfl
        | cons d inner =>
            by_cases hd : d = ']'
            · subst hd
              rfl
            · simp [hd]
      · rw [List.cons_append, attribute?_of_ne hc, attribute?_of_ne hc, Option.map_none]

theorem afterAttributes_some {blank : Char → Bool} {text rest : List Char}
    (h : attribute? text = some rest) :
    afterAttributes blank text = afterAttributes blank (rest.dropWhile blank) := by
  rw [afterAttributes]
  split
  · rename_i found hfound
    rw [Option.some.inj (h.symm.trans hfound)]
  · rename_i hnone
    cases h.symm.trans hnone

theorem afterAttributes_none {blank : Char → Bool} {text : List Char}
    (h : attribute? text = none) : afterAttributes blank text = text := by
  rw [afterAttributes]
  split
  · rename_i found hfound
    cases h.symm.trans hfound
  · rfl

theorem KeepsUpTo.afterAttributes {blank : Char → Bool} {stops : List Char}
    {change : List Char → List Char} (hchange : KeepsUpTo stops change)
    (h : ∀ c ∈ stops, blank c = false)
    (hattribute : ∀ s, attribute? (change s) = (attribute? s).map change) (s : List Char) :
    afterAttributes blank (change s) = change (afterAttributes blank s) := by
  fun_induction Text.afterAttributes blank s with
  | case1 s after hafter ih =>
      have hmap : attribute? (change s) = some (change after) := by
        rw [hattribute, hafter, Option.map_some]
      rw [afterAttributes_some hmap, hchange.dropWhile h, ih]
  | case2 s hnone =>
      have hmap : attribute? (change s) = none := by
        rw [hattribute, hnone, Option.map_none]
      rw [afterAttributes_none hmap]

-- What a reader has read, and with it that what it leaves is an end of what it was given.
theorem after?_suffix {word text rest : List Char} (h : after? word text = some rest) :
    rest <:+ text :=
  ⟨word, (after?_eq_some_iff.mp h).symm⟩

theorem word?_spec {words : List String} {text rest : List Char} {word : String}
    (h : word? words text = some (word, rest)) : word ∈ words ∧ text = word.toList ++ rest := by
  obtain ⟨w, hw, hread⟩ := List.exists_of_findSome?_eq_some h
  obtain ⟨more, hmore, heq⟩ := Option.map_eq_some_iff.mp hread
  cases heq
  exact ⟨hw, after?_eq_some_iff.mp hmore⟩

theorem word?_suffix {words : List String} {text rest : List Char} {word : String}
    (h : word? words text = some (word, rest)) : rest <:+ text :=
  ⟨word.toList, (word?_spec h).2.symm⟩

theorem indents?_suffix {text rest : List Char} (h : indents? text = some rest) :
    rest <:+ text := by
  cases text with
  | nil => cases h
  | cons c text =>
      simp only [indents?] at h
      split at h
      · cases h
        exact (List.dropWhile_suffix isIndent).trans (List.suffix_cons c text)
      · cases h

theorem trimStart_spec (text : List Char) :
    ∃ gap, text = gap ++ trimStart text ∧ ∀ c ∈ gap, isBlank c = true := by
  refine ⟨text.takeWhile isBlank, ?_, ?_⟩
  · rw [trimStart, List.takeWhile_append_dropWhile]
  · intro c hc
    exact List.all_eq_true.mp List.all_takeWhile c hc

-- What trimming takes away is blank.
theorem trim_spec (text : List Char) :
    ∃ before after, text = before ++ trim text ++ after ∧
      (∀ c ∈ before, isBlank c = true) ∧ ∀ c ∈ after, isBlank c = true := by
  obtain ⟨before, hbefore, hblank⟩ := trimStart_spec text
  obtain ⟨after, hafter, hblank'⟩ := trimStart_spec (trimStart text).reverse
  have hend : trimStart text = trim text ++ after.reverse := by
    apply List.reverse_inj.mp
    rw [List.reverse_append, List.reverse_reverse, trim, trimEnd, List.reverse_reverse]
    exact hafter
  refine ⟨before, after.reverse, ?_, hblank, ?_⟩
  · rw [List.append_assoc, ← hend]
    exact hbefore
  · intro c hc
    exact hblank' c (List.mem_reverse.mp hc)

theorem blanks?_spec {text rest : List Char} (h : blanks? text = some rest) :
    ∃ gap, text = gap ++ rest ∧ gap ≠ [] ∧ ∀ c ∈ gap, isBlank c = true := by
  cases text with
  | nil => cases h
  | cons c tail =>
      rw [blanks?] at h
      split at h
      · rename_i hc
        cases h
        obtain ⟨gap, htail, hgap⟩ := trimStart_spec tail
        refine ⟨c :: gap, ?_, List.cons_ne_nil c gap, ?_⟩
        · rw [List.cons_append, ← htail]
        · intro d hd
          rcases List.mem_cons.mp hd with rfl | hd
          · exact hc
          · exact hgap d hd
      · cases h

theorem blanks?_suffix {text rest : List Char} (h : blanks? text = some rest) : rest <:+ text := by
  obtain ⟨gap, htext, -⟩ := blanks?_spec h
  exact ⟨gap, htext.symm⟩

theorem run?_spec {among : Char → Bool} {text run rest : List Char}
    (h : run? among text = some (run, rest)) :
    run ≠ [] ∧ (∀ c ∈ run, among c = true) ∧ text = run ++ rest := by
  cases text with
  | nil => cases h
  | cons c tail =>
      simp only [run?] at h
      split at h
      · rename_i hc
        cases h
        refine ⟨List.cons_ne_nil _ _, ?_, ?_⟩
        · intro other hother
          rcases List.mem_cons.mp hother with rfl | hother
          · exact hc
          · exact List.all_eq_true.mp List.all_takeWhile other hother
        · rw [List.cons_append, List.takeWhile_append_dropWhile]
      · cases h

theorem run?_suffix {among : Char → Bool} {text run rest : List Char}
    (h : run? among text = some (run, rest)) : rest <:+ text :=
  ⟨run, (run?_spec h).2.2.symm⟩

theorem name?_suffix {follows : Char → Bool} {text name rest : List Char}
    (h : name? follows text = some (name, rest)) : rest <:+ text := by
  cases text with
  | nil => cases h
  | cons c text =>
      simp only [name?] at h
      split at h
      · cases h
        exact (List.dropWhile_suffix follows).trans (List.suffix_cons c text)
      · cases h

theorem attribute?_suffix {text rest : List Char} (h : attribute? text = some rest) :
    rest <:+ text := by
  unfold attribute? at h
  split at h
  · rename_i inner
    split at h
    · rename_i after hclosed
      cases h
      have hinner := List.dropWhile_suffix (l := inner) inAttribute
      rw [show inner.dropWhile inAttribute = ']' :: rest from hclosed] at hinner
      exact ((List.suffix_cons ']' rest).trans hinner).trans (List.suffix_cons '[' inner)
    · cases h
  · cases h

theorem afterAttributes_suffix (blank : Char → Bool) (text : List Char) :
    afterAttributes blank text <:+ text := by
  fun_induction afterAttributes blank text with
  | case1 text after hafter ih =>
      exact (ih.trans (List.dropWhile_suffix blank)).trans (attribute?_suffix hafter)
  | case2 text hnone => exact List.suffix_rfl

end TypeAtlas.Text
