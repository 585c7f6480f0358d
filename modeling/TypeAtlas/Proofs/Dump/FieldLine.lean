import Mathlib.Data.List.Forall2
import TypeAtlas.Dump.Field
import TypeAtlas.Proofs.Dump.Nesting
import TypeAtlas.Proofs.Text.Line
import TypeAtlas.Proofs.Text.Read

namespace TypeAtlas.Text

-- The same text, perhaps with a carriage return at its end.
def Ended (text text' : List Char) : Prop :=
  text' = text ∨ text' = text ++ ['\r']

theorem ended_withoutReturn (line : List Char) : Ended (withoutReturn line) line := by
  unfold withoutReturn dropReturn
  split
  · rename_i rest hline
    right
    rw [← List.reverse_cons, ← hline, List.reverse_reverse]
  · left
    exact (List.reverse_reverse line).symm

theorem Ended.refl (text : List Char) : Ended text text :=
  .inl rfl

-- The same result of a reader, and rests that differ at most in a carriage return.
def SameReading {α : Type} (found found' : α × List Char) : Prop :=
  found.1 = found'.1 ∧ Ended found.2 found'.2

theorem keepsUpTo_return : KeepsUpTo ['\r'] (· ++ ['\r']) :=
  .append (.cons List.mem_cons_self [])

theorem leavesOpen_return : LeavesOpen ['\r'] :=
  ⟨by decide, fun _ h => by cases h⟩

variable {text text' : List Char}

theorem Ended.trimStart (h : Ended text text') : Ended (trimStart text) (trimStart text') := by
  rcases h with rfl | rfl
  · exact .refl _
  · rw [Text.trimStart, Text.trimStart, List.dropWhile_append]
    cases text.dropWhile isBlank with
    | nil => exact .inl rfl
    | cons c rest => exact .inr rfl

theorem Ended.afterAttributes (h : Ended text text') :
    Ended (afterAttributes isBlank text) (afterAttributes isBlank text') := by
  fun_induction Text.afterAttributes isBlank text generalizing text' with
  | case1 text after hafter ih =>
      rcases h with rfl | rfl
      · rw [afterAttributes_some hafter]
        exact ih (.refl _)
      · have hmap : attribute? (text ++ ['\r']) = some (after ++ ['\r']) := by
          rw [attribute?_append leavesOpen_return, hafter, Option.map_some]
        rw [afterAttributes_some hmap]
        exact ih (Ended.trimStart (.inr rfl))
  | case2 text hnone =>
      rcases h with rfl | rfl
      · rw [afterAttributes_none hnone]
        exact .refl _
      · have hmap : attribute? (text ++ ['\r']) = none := by
          rw [attribute?_append leavesOpen_return, hnone, Option.map_none]
        rw [afterAttributes_none hmap]
        exact .inr rfl

-- A reader that stops at a carriage return reads the same with one at the end.
theorem Ended.reading {α : Type} {read? : List Char → Option (α × List Char)}
    (hread : read? (text ++ ['\r']) =
      (read? text).map fun found => (found.1, found.2 ++ ['\r'])) (h : Ended text text') :
    Option.Rel SameReading (read? text) (read? text') := by
  rcases h with rfl | rfl
  · cases read? text' with
    | none => exact .none
    | some found => exact .some ⟨rfl, .refl _⟩
  · rw [hread]
    cases read? text with
    | none => exact .none
    | some found => exact .some ⟨rfl, .inr rfl⟩

-- Blanks may be there only with the carriage return, but then nothing follows them.
theorem Ended.blanks? (h : Ended text text') :
    Option.Rel Ended (blanks? text) (blanks? text') ∨
      blanks? text = none ∧ blanks? text' = some [] := by
  cases text with
  | nil =>
      rcases h with rfl | rfl
      · exact .inl .none
      · exact .inr (by decide)
  | cons c rest =>
      obtain ⟨rest', rfl, hrest⟩ : ∃ rest', text' = c :: rest' ∧ Ended rest rest' := by
        rcases h with rfl | rfl
        · exact ⟨rest, rfl, .refl rest⟩
        · exact ⟨rest ++ ['\r'], rfl, .inr rfl⟩
      refine .inl ?_
      simp only [Text.blanks?]
      split
      · exact .some hrest.trimStart
      · exact .none

theorem takeWhile_append_of_dropWhile {p : Char → Bool} {s inner : List Char} {d : Char}
    (h : s.dropWhile p = d :: inner) (more : List Char) :
    (s ++ more).takeWhile p = s.takeWhile p := by
  induction s with
  | nil => cases h
  | cons c s ih =>
      rw [List.dropWhile_cons] at h
      rw [List.cons_append, List.takeWhile_cons, List.takeWhile_cons]
      split at h
      · rw [ih h]
      · rename_i hc
        rw [if_neg hc, if_neg hc]

theorem bind_eq_of_rel {α β γ : Type} {R : α → β → Prop} {x : Option α} {y : Option β}
    {f : α → Option γ} {g : β → Option γ} (h : Option.Rel R x y)
    (hfg : ∀ {a b}, R a b → f a = g b) : x.bind f = y.bind g := by
  cases h with
  | none => rfl
  | some hab => exact hfg hab

theorem findSome?_eq {α β γ : Type} {f : α → Option γ} {g : β → Option γ} {xs : List α}
    {ys : List β} (h : List.Forall₂ (fun x y => f x = g y) xs ys) :
    xs.findSome? f = ys.findSome? g := by
  induction h with
  | nil => rfl
  | cons hxy _ ih => rw [List.findSome?_cons, List.findSome?_cons, hxy, ih]

end TypeAtlas.Text

namespace TypeAtlas.Dump

open Text

variable {text text' : List Char}

namespace FieldLine

theorem visibility?_ended (h : Ended text text') :
    Option.Rel Ended (visibility? text) (visibility? text') := by
  have hwords : ∀ word ∈ visibilityWords, ∀ c ∈ ['\r'], c ∉ word.toList := by decide
  have hrel := h.reading (keepsUpTo_return.word? hwords text)
  rw [visibility?, visibility?]
  generalize word? visibilityWords text = found at hrel
  generalize word? visibilityWords text' = found' at hrel
  cases hrel with
  | none => exact .none
  | some hfound => exact .some hfound.2

theorem modifier?_ended (h : Ended text text') :
    Option.Rel SameReading (modifier? text) (modifier? text') := by
  have hwords : ∀ word ∈ modifierWords, ∀ c ∈ ['\r'], c ∉ word.toList := by decide
  unfold modifier?
  rcases h.blanks? with hrel | ⟨hnone, hsome⟩
  · generalize blanks? text = found at hrel
    generalize blanks? text' = found' at hrel
    cases hrel with
    | none => exact .none
    | some hrest => exact hrest.reading (keepsUpTo_return.word? hwords _)
  · rw [hnone, hsome]
    exact .none

theorem modifierRuns_some {rest : List Char} {word : String}
    (h : modifier? text = some (word, rest)) :
    modifierRuns text =
      (modifierRuns rest).map (fun run => (word :: run.1, run.2)) ++ [([], text)] := by
  rw [modifierRuns]
  split
  · rename_i hfound
    cases h.symm.trans hfound
    rfl
  · rename_i hnone
    cases h.symm.trans hnone

theorem modifierRuns_none (h : modifier? text = none) : modifierRuns text = [([], text)] := by
  rw [modifierRuns]
  split
  · rename_i hfound
    cases h.symm.trans hfound
  · rfl

theorem modifierRuns_ended (h : Ended text text') :
    List.Forall₂ SameReading (modifierRuns text) (modifierRuns text') := by
  have hrel := modifier?_ended h
  fun_induction modifierRuns text generalizing text' with
  | case1 text word rest hafter ih =>
      rw [hafter] at hrel
      generalize hfound : modifier? text' = found at hrel
      cases hrel with
      | some hsame =>
          obtain ⟨rfl, hrest⟩ := hsame
          rw [modifierRuns_some hfound]
          refine List.rel_append ?_ (.cons ⟨rfl, h⟩ .nil)
          refine List.forall₂_map_left_iff.mpr (List.forall₂_map_right_iff.mpr ?_)
          exact (ih hrest (modifier?_ended hrest)).imp fun _ _ hrun => ⟨by rw [hrun.1], hrun.2⟩
  | case2 text hnone =>
      rw [hnone] at hrel
      generalize hfound : modifier? text' = found at hrel
      cases hrel with
      | none =>
          rw [modifierRuns_none hfound]
          exact .cons ⟨rfl, h⟩ .nil

theorem closings_ended (seen : List Char) (h : Ended text text') :
    List.Forall₂ SameReading (closings seen text) (closings seen text') := by
  rcases h with rfl | rfl
  · exact List.forall₂_same.mpr fun _ _ => ⟨rfl, .refl _⟩
  · induction text generalizing seen with
    | nil => exact .nil
    | cons c text ih =>
        simp only [List.cons_append, closings]
        split
        · exact .nil
        · split
          · exact .cons ⟨rfl, .inr rfl⟩ (ih _)
          · exact ih _

theorem arguments_of_ne {c : Char} (h : c ≠ '<') (rest : List Char) :
    arguments (c :: rest) = [([], c :: rest)] := by
  simp [arguments, h]

theorem arguments_ended (h : Ended text text') :
    List.Forall₂ SameReading (arguments text) (arguments text') := by
  rcases h with rfl | rfl
  · exact List.forall₂_same.mpr fun _ _ => ⟨rfl, .refl _⟩
  cases text with
  | nil => exact .cons ⟨rfl, .inr rfl⟩ .nil
  | cons c text =>
      by_cases hc : c = '<'
      · subst hc
        exact List.rel_append (closings_ended ['<'] (.inr rfl)) (.cons ⟨rfl, .inr rfl⟩ .nil)
      · rw [List.cons_append, arguments_of_ne hc, arguments_of_ne hc]
        exact .cons ⟨rfl, .inr rfl⟩ .nil

theorem arrayRank?_cons (rest : List Char) :
    arrayRank? ('[' :: rest) =
      match rest.dropWhile isRankChar with
      | ']' :: after => some ('[' :: rest.takeWhile isRankChar ++ [']'], after)
      | _ => none := rfl

theorem arrayRank?_of_ne {c : Char} (h : c ≠ '[') (rest : List Char) :
    arrayRank? (c :: rest) = none := by
  simp [arrayRank?, h]

theorem arrayRank?_return (text : List Char) :
    arrayRank? (text ++ ['\r']) =
      (arrayRank? text).map fun found => (found.1, found.2 ++ ['\r']) := by
  cases text with
  | nil => rfl
  | cons c text =>
      by_cases hc : c = '['
      · subst hc
        rw [List.cons_append, arrayRank?_cons, arrayRank?_cons, List.dropWhile_append]
        cases hinner : text.dropWhile isRankChar with
        | nil => rfl
        | cons d inner =>
            have htake : (text ++ ['\r']).takeWhile isRankChar = text.takeWhile isRankChar :=
              takeWhile_append_of_dropWhile hinner _
            by_cases hd : d = ']'
            · subst hd
              simp [htake]
            · simp [hd]
      · rw [List.cons_append, arrayRank?_of_ne hc, arrayRank?_of_ne hc, Option.map_none]

theorem arrayRanks_some {rank rest : List Char} (h : arrayRank? text = some (rank, rest)) :
    arrayRanks text = (rank ++ (arrayRanks rest).1, (arrayRanks rest).2) := by
  rw [arrayRanks]
  split
  · rename_i hfound
    cases h.symm.trans hfound
    rfl
  · rename_i hnone
    cases h.symm.trans hnone

theorem arrayRanks_none (h : arrayRank? text = none) : arrayRanks text = ([], text) := by
  rw [arrayRanks]
  split
  · rename_i hfound
    cases h.symm.trans hfound
  · rfl

theorem arrayRanks_ended (h : Ended text text') :
    SameReading (arrayRanks text) (arrayRanks text') := by
  have hrel := h.reading (arrayRank?_return text)
  fun_induction arrayRanks text generalizing text' with
  | case1 text rank after hafter _ =>
      rename_i ih
      rw [hafter] at hrel
      generalize hfound : arrayRank? text' = found at hrel
      cases hrel with
      | some hsame =>
          obtain ⟨hrank, hrest⟩ := hsame
          obtain ⟨hmore, hend⟩ := ih hrest (hrest.reading (arrayRank?_return after))
          rw [arrayRanks_some hfound]
          exact ⟨congrArg₂ (· ++ ·) hrank hmore, hend⟩
  | case2 text hnone =>
      rw [hnone] at hrel
      generalize hfound : arrayRank? text' = found at hrel
      cases hrel with
      | none =>
          rw [arrayRanks_none hfound]
          exact ⟨rfl, h⟩

theorem fieldName?_return (text : List Char) :
    fieldName? (text ++ ['\r']) =
      (fieldName? text).map fun found => (found.1, found.2 ++ ['\r']) := by
  cases text with
  | nil => rfl
  | cons c text =>
      simp only [List.cons_append, fieldName?,
        keepsUpTo_return.dropWhile (p := isFieldNameChar) (by decide),
        keepsUpTo_return.takeWhile (p := isFieldNameChar) (by decide)]
      split
      · rfl
      · rfl

-- Words that stand behind blanks, where a carriage return is not one of their characters.
theorem after?_trimStart_ended {word : List Char} (hword : '\r' ∉ word) (h : Ended text text') :
    Option.Rel Ended (after? word (trimStart text)) (after? word (trimStart text')) := by
  have hstop := keepsUpTo_return.after? (List.forall_mem_singleton.mpr hword)
    (trimStart text)
  rcases h.trimStart with heq | heq
  · rw [heq]
    cases after? word (trimStart text) with
    | none => exact .none
    | some rest => exact .some (.refl rest)
  · rw [heq, hstop]
    cases after? word (trimStart text) with
    | none => exact .none
    | some rest => exact .some (.inr rfl)

theorem offsetDigits?_ended (h : Ended text text') : offsetDigits? text = offsetDigits? text' := by
  unfold offsetDigits?
  refine bind_eq_of_rel (after?_trimStart_ended (by decide) h) fun h => ?_
  refine bind_eq_of_rel (after?_trimStart_ended (by decide) h) fun {a b} h => ?_
  have hmark : Option.Rel Ended
      ((after? ['0', 'x'] (trimStart a)).orElse fun _ => after? ['0', 'X'] (trimStart a))
      ((after? ['0', 'x'] (trimStart b)).orElse fun _ => after? ['0', 'X'] (trimStart b)) := by
    have hlower := after?_trimStart_ended (show '\r' ∉ ['0', 'x'] by decide) h
    have hupper := after?_trimStart_ended (show '\r' ∉ ['0', 'X'] by decide) h
    generalize after? ['0', 'x'] (trimStart a) = found at hlower
    generalize after? ['0', 'x'] (trimStart b) = found' at hlower
    cases hlower with
    | none => exact hupper
    | some hrest => exact .some hrest
  refine bind_eq_of_rel hmark fun h => ?_
  rcases h with rfl | rfl
  · rfl
  · rw [keepsUpTo_return.run? (by decide), Option.map_map]
    rfl

-- Two readings agree behind blanks if they agree behind rests that differ at most in a carriage
-- return, and if nothing is read where there is no text.
theorem blanks?_bind_ended {α : Type} {read? : List Char → Option α} (hnil : read? [] = none)
    (hread : ∀ {rest rest'}, Ended rest rest' → read? rest = read? rest') (h : Ended text text') :
    (blanks? text).bind read? = (blanks? text').bind read? := by
  rcases h.blanks? with hrel | ⟨hnone, hsome⟩
  · exact bind_eq_of_rel hrel hread
  · rw [hnone, hsome, Option.bind_none, Option.bind_some, hnil]

theorem afterArguments?_ended (modifiers : List String) (stem : List Char)
    {way way' : List Char × List Char} (h : SameReading way way') :
    afterArguments? modifiers stem way = afterArguments? modifiers stem way' := by
  obtain ⟨hway, hrest⟩ := h
  obtain ⟨hranks, hrest⟩ := arrayRanks_ended hrest
  unfold afterArguments?
  rw [hway]
  simp only [hranks]
  refine blanks?_bind_ended rfl (fun h => ?_) hrest
  refine bind_eq_of_rel (h.reading (fieldName?_return _)) fun hname => ?_
  rw [hname.1, offsetDigits?_ended hname.2]

theorem afterModifiers?_ended {run run' : List String × List Char} (h : SameReading run run') :
    afterModifiers? run = afterModifiers? run' := by
  unfold afterModifiers?
  rw [h.1]
  refine blanks?_bind_ended rfl (fun h => ?_) h.2
  refine bind_eq_of_rel (h.reading (keepsUpTo_return.name? (by decide) _))
    fun {found found'} hstem => ?_
  obtain ⟨stem, rest⟩ := found
  obtain ⟨rfl, hrest⟩ := hstem
  exact findSome?_eq ((arguments_ended hrest).imp fun _ _ => afterArguments?_ended _ _)

theorem read?_ended (h : Ended text text') : read? text = read? text' :=
  bind_eq_of_rel (visibility?_ended h.trimStart.afterAttributes) fun h =>
    findSome?_eq ((modifierRuns_ended h).imp fun _ _ => afterModifiers?_ended)

-- A line that begins with a slash, behind blanks, is no field, nor is a blank line.
theorem read?_slash {text : List Char} (h : Stops ['/'] (trimStart text)) : read? text = none := by
  have hattributes : afterAttributes isBlank (trimStart text) = trimStart text := by
    refine afterAttributes_none ?_
    cases hrest : trimStart text with
    | nil => rfl
    | cons c rest =>
        refine attribute?_of_ne ?_ rest
        rintro rfl
        rw [hrest] at h
        exact absurd (h '[' rfl) (by decide)
  have hvisibility : visibility? (trimStart text) = none := by
    have hwords : ∀ word ∈ visibilityWords, ∀ c ∈ ['/'], c ∉ word.toList := by decide
    have hread := (KeepsUpTo.append h).word? hwords []
    have hnone : word? visibilityWords [] = none := by decide
    rw [hnone, List.nil_append, Option.map_none] at hread
    rw [visibility?, hread, Option.map_none]
  rw [read?, hattributes, hvisibility]
  rfl

-- The carriage return of a line ending, where it is left to a line, belongs to no field.
theorem read?_withoutReturn (line : List Char) : read? (withoutReturn line) = read? line :=
  read?_ended (ended_withoutReturn line)

end FieldLine

-- Lines of the same weight: they declare the same field, if any, and lead to the same depth.
def SameWeight (line line' : List Char) : Prop :=
  FieldLine.read? line = FieldLine.read? line' ∧ balance line = balance line'

theorem sameWeight_withoutReturn (line : List Char) : SameWeight (withoutReturn line) line := by
  refine ⟨FieldLine.read?_withoutReturn line, ?_⟩
  rcases ended_withoutReturn line with heq | heq
  · exact congrArg balance heq.symm
  · exact (balance_return (withoutReturn line)).symm.trans (congrArg balance heq.symm)

theorem fields_topLines_congr {lines lines' : List (List Char)}
    (h : List.Forall₂ SameWeight lines lines') (depth : Int) :
    (topLines depth lines).filterMap FieldLine.read? =
      (topLines depth lines').filterMap FieldLine.read? := by
  induction h generalizing depth with
  | nil => rfl
  | cons hline _ ih =>
      simp only [topLines, hline.2]
      split
      · rw [List.filterMap_cons, List.filterMap_cons, hline.1, ih]
      · exact ih _

-- A line that declares no field and ends as deep as it begins.
def Silent (line : List Char) : Prop :=
  FieldLine.read? line = none ∧ balance line = 0

instance (line : List Char) : Decidable (Silent line) :=
  inferInstanceAs (Decidable (_ ∧ _))

theorem fields_topLines_insert {inserted : List (List Char)}
    (h : ∀ line ∈ inserted, Silent line) (front back : List (List Char)) (depth : Int) :
    (topLines depth (front ++ (inserted ++ back))).filterMap FieldLine.read? =
      (topLines depth (front ++ back)).filterMap FieldLine.read? := by
  induction front generalizing depth with
  | nil =>
      induction inserted generalizing depth with
      | nil => rfl
      | cons line inserted ih =>
          obtain ⟨⟨hread, hbalance⟩, hinserted⟩ := List.forall_mem_cons.mp h
          have hrest := ih hinserted depth
          simp only [List.nil_append, List.cons_append, topLines, hbalance, Int.add_zero] at hrest ⊢
          split
          · rw [List.filterMap_cons, hread, hrest]
          · exact hrest
  | cons line front ih =>
      simp only [List.cons_append, topLines]
      split
      · rw [List.filterMap_cons, List.filterMap_cons, ih]
      · exact ih _

-- Silent lines between two lines of a body leave its fields as they are.
theorem fields_insert (rules : Rules) (kind : Kind) {inserted : List Char}
    (h : ∀ line ∈ lines (inserted ++ ['\n']), Silent line) (front back : List Char) :
    fields rules kind (front ++ '\n' :: (inserted ++ '\n' :: back)) =
      fields rules kind (front ++ '\n' :: back) := by
  have hlines : fieldLines (front ++ '\n' :: (inserted ++ '\n' :: back)) =
      fieldLines (front ++ '\n' :: back) := by
    rw [fieldLines, fieldLines, lines_break, lines_break inserted, lines_break front back,
      fields_topLines_insert h]
  rw [fields, fields, fieldFindings, fieldFindings, hlines]

end TypeAtlas.Dump
