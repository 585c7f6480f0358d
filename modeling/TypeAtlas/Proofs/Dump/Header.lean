import TypeAtlas.Dump.Header
import TypeAtlas.Proofs.Text.Read

namespace TypeAtlas.Dump

open Text

section

variable {change : List Char → List Char} (hchange : KeepsUpTo wordStops change)
include hchange

theorem Kind.read?_change (s : List Char) :
    Kind.read? (change s) = (Kind.read? s).map fun found => (found.1, change found.2) := by
  rw [Kind.read?, Kind.read?, List.map_findSome?]
  congr 1
  funext kind
  have hkeyword : ∀ c ∈ wordStops, c ∉ kind.keyword.toList := by
    cases kind <;> decide
  simp only [Function.comp_apply, hchange.after? hkeyword]
  cases after? kind.keyword.toList s with
  | none => rfl
  | some after =>
      simp only [Option.map_some, Option.bind_some, Option.bind_eq_bind,
        hchange.indents? (by decide)]
      cases indents? after with
      | none => rfl
      | some after => rfl

theorem Header.modifier?_change (s : List Char) :
    modifier? (change s) = (modifier? s).map fun found => (found.1, change found.2) := by
  have hwords : ∀ word ∈ modifierWords, ∀ c ∈ wordStops, c ∉ word.toList := by decide
  rw [modifier?, modifier?, hchange.word? hwords]
  cases word? modifierWords s with
  | none => rfl
  | some found =>
      simp only [Option.map_some, hchange.indents? (by decide), Option.map_map, Function.comp_def]

omit hchange in
theorem Header.modifiers_some {text after : List Char} {word : String}
    (h : modifier? text = some (word, after)) :
    modifiers text = (word :: (modifiers after).1, (modifiers after).2) := by
  rw [modifiers]
  split
  · rename_i hfound
    cases h.symm.trans hfound
    rfl
  · rename_i hnone
    cases h.symm.trans hnone

omit hchange in
theorem Header.modifiers_none {text : List Char} (h : modifier? text = none) :
    modifiers text = ([], text) := by
  rw [modifiers]
  split
  · rename_i hfound
    cases h.symm.trans hfound
  · rfl

theorem Header.modifiers_change (s : List Char) :
    modifiers (change s) = ((modifiers s).1, change (modifiers s).2) := by
  fun_induction modifiers s with
  | case1 s word after hafter rest ih =>
      have hmap : modifier? (change s) = some (word, change after) := by
        rw [modifier?_change hchange, hafter, Option.map_some]
      rw [modifiers_some hmap, ih]
  | case2 s hnone =>
      have hmap : modifier? (change s) = none := by
        rw [modifier?_change hchange, hnone, Option.map_none]
      rw [modifiers_none hmap]

omit hchange in
theorem Header.dottedPart?_of_stops {s : List Char} (hs : Stops wordStops s) :
    dottedPart? s = none := by
  cases s with
  | nil => rfl
  | cons c s =>
      have hc : c ≠ '.' := by
        rintro rfl
        exact absurd (hs '.' rfl) (by decide)
      simp [dottedPart?, hc]

theorem Header.dottedPart?_change (s : List Char) :
    dottedPart? (change s) = (dottedPart? s).map fun found => (found.1, change found.2) := by
  rcases stops_or_cons wordStops s with hs | ⟨c, s, rfl, hc⟩
  · rw [dottedPart?_of_stops hs, dottedPart?_of_stops (hchange.stopped hs), Option.map_none]
  · rw [hchange.keeps hc]
    by_cases hdot : c = '.'
    · subst hdot
      exact hchange.name? (by decide) s
    · simp [dottedPart?, hdot]

omit hchange in
theorem Header.dottedParts_some {text part after : List Char}
    (h : dottedPart? text = some (part, after)) :
    dottedParts text = ('.' :: part ++ (dottedParts after).1, (dottedParts after).2) := by
  rw [dottedParts]
  split
  · rename_i hfound
    cases h.symm.trans hfound
    rfl
  · rename_i hnone
    cases h.symm.trans hnone

omit hchange in
theorem Header.dottedParts_none {text : List Char} (h : dottedPart? text = none) :
    dottedParts text = ([], text) := by
  rw [dottedParts]
  split
  · rename_i hfound
    cases h.symm.trans hfound
  · rfl

theorem Header.dottedParts_change (s : List Char) :
    dottedParts (change s) = ((dottedParts s).1, change (dottedParts s).2) := by
  fun_induction dottedParts s with
  | case1 s part after hafter rest ih =>
      have hmap : dottedPart? (change s) = some (part, change after) := by
        rw [dottedPart?_change hchange, hafter, Option.map_some]
      rw [dottedParts_some hmap, ih]
  | case2 s hnone =>
      have hmap : dottedPart? (change s) = none := by
        rw [dottedPart?_change hchange, hnone, Option.map_none]
      rw [dottedParts_none hmap]

omit hchange in
theorem Header.typeParameters?_eq_none {s : List Char} (hs : Stops wordStops (s.dropWhile isIndent)) :
    typeParameters? s = none := by
  unfold typeParameters?
  split
  · rename_i hopen
    exact absurd (hs '<' (hopen ▸ rfl)) (by decide)
  · rfl

theorem Header.typeParameters?_change (s : List Char) :
    typeParameters? (change s) = (typeParameters? s).map change := by
  have hblank : (change s).dropWhile isIndent = change (s.dropWhile isIndent) :=
    hchange.dropWhile (by decide) s
  rcases stops_or_cons wordStops (s.dropWhile isIndent) with hs | ⟨c, rest, hrest, hc⟩
  · rw [typeParameters?_eq_none hs, typeParameters?_eq_none (hblank ▸ hchange.stopped hs),
      Option.map_none]
  · rw [typeParameters?, typeParameters?, hblank, hrest, hchange.keeps hc]
    by_cases hopen : c = '<'
    · subst hopen
      rfl
    · simp [hopen]

omit hchange in
theorem Header.baseAfter_of_stops {s : List Char} (hs : Stops wordStops s) :
    baseAfter s = (none, s) := by
  cases s with
  | nil => rfl
  | cons c s =>
      have hc : c ≠ ':' := by
        rintro rfl
        exact absurd (hs ':' rfl) (by decide)
      simp [baseAfter, hc]

theorem Header.baseAfter_change (s : List Char) :
    baseAfter (change s) = ((baseAfter s).1, change (baseAfter s).2) := by
  rcases stops_or_cons wordStops s with hs | ⟨c, s, rfl, hc⟩
  · rw [baseAfter_of_stops hs, baseAfter_of_stops (hchange.stopped hs)]
  · rw [hchange.keeps hc]
    by_cases hcolon : c = ':'
    · subst hcolon
      simp only [baseAfter]
      rw [hchange.dropWhile (by decide), hchange.name? (by decide)]
      cases name? (fun c => isWord c || c == '.') (s.dropWhile isIndent) with
      | none => simp only [Option.map_none, hchange.keeps hc]
      | some found => rfl
    · simp [baseAfter, hcolon, hchange.keeps hc]

end

theorem Kind.read?_suffix {text rest : List Char} {kind : Kind}
    (h : Kind.read? text = some (kind, rest)) : rest <:+ text := by
  obtain ⟨k, -, hk⟩ := List.exists_of_findSome?_eq_some h
  obtain ⟨after, hafter, hk⟩ := Option.bind_eq_some_iff.mp hk
  obtain ⟨found, hfound, hk⟩ := Option.bind_eq_some_iff.mp hk
  cases hk
  exact (indents?_suffix hfound).trans (after?_suffix hafter)

namespace Header

-- A header up to its name and the bracket behind it, and what follows.
def stem? (text : List Char) : Option (Header × List Char) := do
  let text := afterAttributes isIndent (text.dropWhile isIndent)
  let (words, text) := modifiers text
  let (kind, text) ← Kind.read? text
  let (first, text) ← name? isNameChar text
  let (parts, text) := dottedParts text
  let parameters := typeParameters? text
  let header :=
    ⟨kind, String.ofList (first ++ parts), words.contains "abstract", parameters.isSome, none⟩
  some (header, parameters.getD text)

-- The base that stands somewhere behind the stem of a header.
def withBase (stem : Header × List Char) : Header × List Char :=
  let found := baseAfter (stem.2.dropWhile isFiller)
  ({ stem.1 with base := found.1 }, found.2)

theorem read?_eq (text : List Char) : read? text = (stem? text).map withBase := by
  simp only [read?, stem?]
  cases Kind.read? (modifiers (afterAttributes isIndent (text.dropWhile isIndent))).2 with
  | none => rfl
  | some kind =>
      simp only [Option.bind_eq_bind, Option.bind_some]
      cases name? isNameChar kind.2 with
      | none => rfl
      | some first => rfl

-- A change that leaves a header's attributes as they are leaves all of its stem.
theorem stem?_change {change : List Char → List Char} (hchange : KeepsUpTo wordStops change)
    {s : List Char} (h : afterAttributes isIndent (change (s.dropWhile isIndent)) =
      change (afterAttributes isIndent (s.dropWhile isIndent))) :
    stem? (change s) = (stem? s).map fun found => (found.1, change found.2) := by
  simp only [stem?, hchange.dropWhile (show ∀ c ∈ wordStops, isIndent c = false by decide),
    h, modifiers_change hchange, Kind.read?_change hchange]
  cases Kind.read? (modifiers (afterAttributes isIndent (s.dropWhile isIndent))).2 with
  | none => rfl
  | some kind =>
      simp only [Option.map_some, Option.bind_eq_bind, Option.bind_some,
        hchange.name? (show ∀ c ∈ wordStops, isNameStart c = false ∧ isNameChar c = false by
          decide)]
      cases name? isNameChar kind.2 with
      | none => rfl
      | some first =>
          simp only [Option.map_some, Option.bind_some, dottedParts_change hchange,
            typeParameters?_change hchange]
          cases typeParameters? (dottedParts first.2).2 with
          | none => rfl
          | some inner => rfl

-- Where a line begins with a stop, behind its indent, there is no header.
theorem read?_of_stops {text : List Char} (h : Stops wordStops (text.dropWhile isIndent)) :
    read? text = none := by
  have hattributes : afterAttributes isIndent (text.dropWhile isIndent) =
      text.dropWhile isIndent := by
    refine afterAttributes_none ?_
    cases hrest : text.dropWhile isIndent with
    | nil => rfl
    | cons c rest =>
        refine attribute?_of_ne ?_ rest
        rintro rfl
        rw [hrest] at h
        exact absurd (h '[' rfl) (by decide)
  have hkind := Kind.read?_change (KeepsUpTo.append h) (modifiers []).2
  have hmodifiers := modifiers_change (KeepsUpTo.append h) []
  have hnone : Kind.read? (modifiers []).2 = none := by decide +kernel
  rw [List.nil_append] at hmodifiers
  rw [hnone, Option.map_none] at hkind
  rw [read?, hattributes, hmodifiers]
  dsimp only
  rw [hkind]
  rfl

-- What does not look like a header does not come to look like one by what follows it.
theorem read?_append_of_none {s more : List Char} (h : read? s = none)
    (hstops : Stops wordStops more) (hopen : LeavesOpen more) : read? (s ++ more) = none := by
  have hindent : ∀ c ∈ wordStops, isIndent c = false := by decide
  have hkeeps : KeepsUpTo wordStops (· ++ more) := .append hstops
  have hattributes := hkeeps.afterAttributes hindent (attribute?_append hopen) (s.dropWhile isIndent)
  rw [read?_eq, Option.map_eq_none_iff] at h ⊢
  rw [stem?_change hkeeps hattributes, h, Option.map_none]

theorem leavesOpen_break (rest : List Char) : LeavesOpen ('\n' :: rest) :=
  ⟨by simp, fun _ h => by cases h⟩

-- A header stands on one line: what follows that line neither makes nor changes it.
theorem read?_break (s rest : List Char) :
    Header.read? (s ++ '\n' :: rest) =
      (Header.read? s).map fun found => (found.1, found.2 ++ '\n' :: rest) := by
  have hstop : KeepsUpTo ['\n'] (· ++ '\n' :: rest) := .append (.cons List.mem_cons_self rest)
  have hstops : KeepsUpTo wordStops (· ++ '\n' :: rest) := .append (.cons (by decide) rest)
  have hindent : ∀ c ∈ ['\n'], isIndent c = false := by decide
  have hattributes := hstop.afterAttributes hindent (attribute?_append (leavesOpen_break rest))
    (s.dropWhile isIndent)
  rw [read?_eq, read?_eq, stem?_change hstops hattributes, Option.map_map, Option.map_map]
  refine congrArg (fun f => (stem? s).map f) (funext fun found => ?_)
  simp only [Function.comp_apply, withBase, hstop.dropWhile (p := isFiller) (by decide),
    baseAfter_change hstops]

theorem modifiers_suffix (text : List Char) : (modifiers text).2 <:+ text := by
  fun_induction modifiers text with
  | case1 text word after hafter rest ih =>
      unfold modifier? at hafter
      split at hafter
      · rename_i w found hword
        obtain ⟨r, hr, he⟩ := Option.map_eq_some_iff.mp hafter
        cases he
        exact (ih.trans (indents?_suffix hr)).trans (word?_suffix hword)
      · cases hafter
  | case2 text hnone => exact List.suffix_rfl

theorem dottedParts_suffix (text : List Char) : (dottedParts text).2 <:+ text := by
  fun_induction dottedParts text with
  | case1 text part after hafter rest ih =>
      unfold dottedPart? at hafter
      split at hafter
      · exact (ih.trans (name?_suffix hafter)).trans (List.suffix_cons _ _)
      · cases hafter
  | case2 text hnone => exact List.suffix_rfl

theorem typeParameters?_suffix {text rest : List Char} (h : typeParameters? text = some rest) :
    rest <:+ text := by
  unfold typeParameters? at h
  split at h
  · rename_i inner hinner
    cases h
    have hdropped := List.dropWhile_suffix (l := text) isIndent
    rw [hinner] at hdropped
    exact (List.suffix_cons '<' rest).trans hdropped
  · cases h

theorem baseAfter_suffix (text : List Char) : (baseAfter text).2 <:+ text := by
  unfold baseAfter
  split
  · split
    · rename_i rest _ name found hname
      exact ((name?_suffix hname).trans (List.dropWhile_suffix isIndent)).trans
        (List.suffix_cons ':' rest)
    · exact List.suffix_rfl
  · exact List.suffix_rfl

theorem stem?_suffix {text rest : List Char} {header : Header}
    (h : stem? text = some (header, rest)) : rest <:+ text := by
  unfold stem? at h
  obtain ⟨kind, hkind, h⟩ := Option.bind_eq_some_iff.mp h
  obtain ⟨first, hfirst, h⟩ := Option.bind_eq_some_iff.mp h
  cases h
  have hparameters : (typeParameters? (dottedParts first.2).2).getD (dottedParts first.2).2 <:+
      (dottedParts first.2).2 := by
    cases hfound : typeParameters? (dottedParts first.2).2 with
    | none => exact List.suffix_rfl
    | some inner => exact typeParameters?_suffix hfound
  exact hparameters.trans <| (dottedParts_suffix _).trans <| (name?_suffix hfirst).trans <|
    (Kind.read?_suffix hkind).trans <| (modifiers_suffix _).trans <|
    (afterAttributes_suffix _ _).trans (List.dropWhile_suffix isIndent)

theorem read?_suffix {text rest : List Char} {header : Header}
    (h : read? text = some (header, rest)) : rest <:+ text := by
  rw [read?_eq] at h
  obtain ⟨⟨stem, after⟩, hstem, he⟩ := Option.map_eq_some_iff.mp h
  cases he
  exact ((baseAfter_suffix _).trans (List.dropWhile_suffix isFiller)).trans (stem?_suffix hstem)

end Header

end TypeAtlas.Dump
