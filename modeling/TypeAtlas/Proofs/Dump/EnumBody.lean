import TypeAtlas.Dump.EnumBody
import TypeAtlas.Proofs.Text.Line
import TypeAtlas.Proofs.Text.Read

namespace TypeAtlas.Dump

open Text

-- A change to a text that the readers of an enum's body do not notice.
structure Unnoticed (change : List Char → List Char) : Prop extends
    KeepsUpTo wordStops change where
  trims : ∀ text, trimStart (change text) = change (trimStart text)
  blanks : ∀ text, blanks? (change text) = (blanks? text).map change

theorem map_bind_map {α α' β β' : Type} {x : Option α} {F : α → α'} {G : β → β'}
    {f : α → Option β} {g : α' → Option β'} (h : ∀ a, g (F a) = (f a).map G) :
    (x.map F).bind g = (x.bind f).map G := by
  cases x with
  | none => rfl
  | some a => exact h a

section

variable {change : List Char → List Char} (hchange : Unnoticed change)
include hchange

theorem visibility?_change (text : List Char) :
    visibility? (change text) = (visibility? text).map change := by
  have hwords : ∀ word ∈ visibilityWords, ∀ c ∈ wordStops, c ∉ word.toList := by decide
  rw [visibility?, visibility?, hchange.word? hwords, Option.map_map, Option.map_map]
  rfl

theorem afterVisibility_change (text : List Char) :
    afterVisibility (change text) = change (afterVisibility text) := by
  have hmap : (visibility? (change text)).bind blanks? =
      ((visibility? text).bind blanks?).map change := by
    rw [visibility?_change hchange]
    exact map_bind_map hchange.blanks
  rw [afterVisibility, afterVisibility, hmap]
  cases (visibility? text).bind blanks? with
  | none => rfl
  | some rest => rfl

theorem sign_change (text : List Char) :
    ((change text).head? == some '-') = (text.head? == some '-') := by
  have hnone {s : List Char} (hs : Stops wordStops s) : (s.head? == some '-') = false := by
    refine beq_eq_false_iff_ne.mpr fun hhead => ?_
    exact absurd (hs '-' hhead) (by decide)
  rcases stops_or_cons wordStops text with hs | ⟨c, rest, rfl, hc⟩
  · rw [hnone hs, hnone (hchange.stopped hs)]
  · rw [hchange.keeps hc]
    rfl

theorem behindSign_change (text : List Char) :
    (if text.head? == some '-' then (change text).drop 1 else change text) =
      change (if text.head? == some '-' then text.drop 1 else text) := by
  cases text with
  | nil => rfl
  | cons c rest =>
      by_cases hc : c = '-'
      · subst hc
        rw [hchange.keeps (by decide)]
        rfl
      · simp [hc]

theorem EnumMember.read?_change (text : List Char) :
    EnumMember.read? (change text) =
      (EnumMember.read? text).map fun found => (found.1, change found.2) := by
  unfold EnumMember.read?
  rw [hchange.trims, afterVisibility_change hchange, hchange.after? (by decide)]
  refine map_bind_map fun text => ?_
  rw [hchange.blanks]
  refine map_bind_map fun text => ?_
  rw [hchange.run? (by decide)]
  refine map_bind_map fun ⟨_, text⟩ => ?_
  dsimp only
  rw [hchange.blanks]
  refine map_bind_map fun text => ?_
  rw [hchange.name? (by decide)]
  refine map_bind_map fun ⟨name, text⟩ => ?_
  dsimp only
  rw [hchange.trims, hchange.after? (by decide)]
  refine map_bind_map fun text => ?_
  rw [hchange.trims, sign_change hchange, behindSign_change hchange, hchange.run? (by decide)]
  refine map_bind_map fun ⟨digits, text⟩ => ?_
  dsimp only
  rw [hchange.trims, hchange.after? (by decide)]
  exact map_bind_map fun _ => rfl

theorem storageField?_change (text : List Char) :
    storageField? (change text) = storageField? text := by
  have hmap : storageField? (change text) = (storageField? text).map id := by
    unfold storageField?
    rw [hchange.trims, visibility?_change hchange]
    refine map_bind_map fun text => ?_
    rw [hchange.blanks]
    refine map_bind_map fun text => ?_
    rw [hchange.run? (by decide)]
    refine map_bind_map fun ⟨type, text⟩ => ?_
    dsimp only
    rw [hchange.blanks]
    refine map_bind_map fun text => ?_
    rw [hchange.after? (by decide)]
    refine map_bind_map fun text => ?_
    rw [hchange.trims, hchange.after? (by decide)]
    exact map_bind_map fun _ => rfl
  rw [hmap, Option.map_id_apply]

end

theorem afterVisibility_suffix (text : List Char) : afterVisibility text <:+ text := by
  unfold afterVisibility
  cases hfound : (visibility? text).bind blanks? with
  | none => exact List.suffix_rfl
  | some rest =>
      obtain ⟨after, hafter, hblanks⟩ := Option.bind_eq_some_iff.mp hfound
      obtain ⟨word, hword, rfl⟩ := Option.map_eq_some_iff.mp hafter
      exact (blanks?_suffix hblanks).trans (word?_suffix hword)

theorem EnumMember.read?_suffix {text rest : List Char} {member : EnumMember}
    (h : EnumMember.read? text = some (member, rest)) : rest <:+ text := by
  unfold EnumMember.read? at h
  obtain ⟨behindConst, hconst, h⟩ := Option.bind_eq_some_iff.mp h
  obtain ⟨atType, htype, h⟩ := Option.bind_eq_some_iff.mp h
  obtain ⟨type, hrun, h⟩ := Option.bind_eq_some_iff.mp h
  obtain ⟨atName, hblanks, h⟩ := Option.bind_eq_some_iff.mp h
  obtain ⟨name, hname, h⟩ := Option.bind_eq_some_iff.mp h
  obtain ⟨behindSign, hequals, h⟩ := Option.bind_eq_some_iff.mp h
  obtain ⟨digits, hdigits, h⟩ := Option.bind_eq_some_iff.mp h
  obtain ⟨end', hend, h⟩ := Option.bind_eq_some_iff.mp h
  cases h
  have hsign : (if (trimStart behindSign).head? == some '-' then (trimStart behindSign).drop 1
      else trimStart behindSign) <:+ behindSign := by
    split
    · exact (List.drop_suffix 1 _).trans (List.dropWhile_suffix isBlank)
    · exact List.dropWhile_suffix isBlank
  have htail : rest <:+ behindSign :=
    ((after?_suffix hend).trans (List.dropWhile_suffix isBlank)).trans
      ((run?_suffix hdigits).trans hsign)
  have hhead : behindSign <:+ behindConst :=
    ((after?_suffix hequals).trans (List.dropWhile_suffix isBlank)).trans <|
      (name?_suffix hname).trans <| (blanks?_suffix hblanks).trans <|
      (run?_suffix hrun).trans (blanks?_suffix htype)
  exact (htail.trans hhead).trans <| (after?_suffix hconst).trans <|
    (afterVisibility_suffix _).trans (List.dropWhile_suffix isBlank)

-- Fuel beyond the length of the text changes nothing.
theorem membersFrom_fuel {fuel fuel' : Nat} {text : List Char} (h : text.length < fuel)
    (h' : text.length < fuel') : membersFrom fuel text = membersFrom fuel' text := by
  induction fuel generalizing fuel' text with
  | zero => exact absurd h (Nat.not_lt_zero _)
  | succ fuel ih =>
      obtain ⟨fuel', rfl⟩ := Nat.exists_eq_add_one_of_ne_zero (Nat.ne_zero_of_lt h')
      have hline {rest : List Char} (hrest : rest.length ≤ text.length) :
          (afterLine? rest).map (membersFrom fuel) = (afterLine? rest).map (membersFrom fuel') := by
        cases hnext : afterLine? rest with
        | none => rfl
        | some next =>
            have hlength := afterLine?_length hnext
            have hsame : membersFrom fuel next = membersFrom fuel' next :=
              ih (by omega) (by omega)
            rw [Option.map_some, Option.map_some, hsame]
      simp only [membersFrom]
      cases hread : EnumMember.read? text with
      | none =>
          dsimp only
          rw [hline (Nat.le_refl _)]
      | some found =>
          have hrest := hline (EnumMember.read?_suffix hread).length_le
          dsimp only
          rw [hrest]

-- The constants on the lines behind the one a text begins with.
def membersBehind (text : List Char) : List EnumMember :=
  ((afterLine? text).map enumMembers).getD []

theorem enumMembers_eq (text : List Char) :
    enumMembers text =
      match EnumMember.read? text with
      | some (member, rest) => member :: membersBehind rest
      | none => membersBehind text := by
  have hbehind {rest : List Char} (hrest : rest.length ≤ text.length) :
      ((afterLine? rest).map (membersFrom text.length)).getD [] = membersBehind rest := by
    unfold membersBehind
    cases hnext : afterLine? rest with
    | none => rfl
    | some next =>
        have hlength := afterLine?_length hnext
        simp only [Option.map_some, Option.getD_some, enumMembers]
        exact membersFrom_fuel (by omega) (Nat.lt_succ_self _)
  rw [enumMembers, membersFrom]
  cases hread : EnumMember.read? text with
  | none => exact hbehind (Nat.le_refl _)
  | some found =>
      have hrest := (EnumMember.read?_suffix hread).length_le
      exact congrArg (found.1 :: ·) (hbehind hrest)

theorem storage?_eq (text : List Char) :
    storage? text = (storageField? text).orElse fun _ => (afterLine? text).bind storage? := by
  rw [storage?]
  cases storageField? text with
  | some type => rfl
  | none =>
      dsimp only
      split
      · rename_i rest hrest
        rw [hrest]
        rfl
      · rename_i hnone
        rw [hnone]
        rfl

-- What begins with a comment is not noticed behind a text.
theorem Unnoticed.append {more : List Char} (hmore : Stops ['/'] more) :
    Unnoticed (· ++ more) where
  toKeepsUpTo := .append (hmore.mono (by decide))
  trims := (KeepsUpTo.append hmore).dropWhile (by decide)
  blanks text := by
    cases text with
    | nil =>
        cases more with
        | nil => rfl
        | cons c more =>
            have hc : c = '/' := List.mem_singleton.mp (hmore c rfl)
            subst hc
            rfl
    | cons c text =>
        have htrim : trimStart (text ++ more) = trimStart text ++ more :=
          (KeepsUpTo.append hmore).dropWhile (by decide) text
        simp only [List.cons_append, blanks?, htrim]
        split
        · rfl
        · rfl

variable {more : List Char} (hmore : Stops ['/'] more)
include hmore

-- A comment behind a body gives it no further constant, if the lines below the comment do not.
theorem enumMembers_append (hbehind : membersBehind more = []) (text : List Char) :
    enumMembers (text ++ more) = enumMembers text := by
  induction hn : text.length using Nat.strongRecOn generalizing text with
  | ind n ih =>
      have hrest {rest : List Char} (hlength : rest.length ≤ text.length) :
          membersBehind (rest ++ more) = membersBehind rest := by
        rw [membersBehind, afterLine?_append]
        cases hnext : afterLine? rest with
        | none =>
            rw [membersBehind, hnext]
            exact hbehind
        | some next =>
            have hshort := afterLine?_length hnext
            rw [membersBehind, hnext]
            exact ih next.length (by omega) next rfl
      rw [enumMembers_eq, enumMembers_eq text, EnumMember.read?_change (.append hmore)]
      cases hread : EnumMember.read? text with
      | none => exact hrest (Nat.le_refl _)
      | some found =>
          exact congrArg (found.1 :: ·) (hrest (EnumMember.read?_suffix hread).length_le)

theorem storage?_append (hbehind : (afterLine? more).bind storage? = none) (text : List Char) :
    storage? (text ++ more) = storage? text := by
  induction hn : text.length using Nat.strongRecOn generalizing text with
  | ind n ih =>
      rw [storage?_eq, storage?_eq text, storageField?_change (.append hmore), afterLine?_append]
      cases storageField? text with
      | some type => rfl
      | none =>
          cases hnext : afterLine? text with
          | none => exact hbehind
          | some next => exact ih next.length (hn ▸ afterLine?_length hnext) next rfl

end TypeAtlas.Dump
