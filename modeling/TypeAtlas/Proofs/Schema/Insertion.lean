import TypeAtlas.Proofs.Dump.Insertion
import TypeAtlas.Proofs.Schema.Lines

namespace TypeAtlas.Schema

open Dump Text

theorem SameLine.of_eq {rules : Rules} {text line line' : List Char}
    (h : declares? line = declares? line') : SameLine rules text line line' := by
  rw [SameLine, h]
  cases declares? line' with
  | none => exact .none
  | some d => exact .some ⟨rfl, rfl, fun _ => (Alike.equivalence rules).refl d⟩

theorem declares?_of_header {line : List Char} (h : Header.read? line = none) (more : List Char) :
    declares? (line ++ '\n' :: more) = none := by
  rw [declares?_eq, opened?, Header.read?_break, h]
  rfl

theorem declares?_finalBreak (line : List Char) : declares? (line ++ ['\n']) = declares? line := by
  rw [declares?_eq, declares?_eq, opened?, opened?, Header.read?_break]
  cases Header.read? line with
  | none => rfl
  | some found =>
      simp only [Option.map_some, Option.bind_some]
      split
      · rfl
      · rw [opening?_finalBreak]
        cases opening? false false found.2 with
        | none => rfl
        | some inner =>
            have hbody (block : Option (List Char × List Char)) :
                block.map (fun block => found.1.declaration block.1) =
                  (block.map Prod.fst).map found.1.declaration := by
              rw [Option.map_map]
              rfl
            simp only [Option.map_some, Option.bind_some, hbody, enclosed?_finalBreak]

-- Lines that end an enum and add nothing to what it says.
def EndsSame (inserted : List Char) : Prop :=
  ∀ declared body, Enum.read? declared (body ++ '\n' :: (inserted ++ ['\n'])) =
    Enum.read? declared (body ++ ['\n'])

section

variable {rules : Rules} {front inserted back : List Char}

-- A declaration around unseen lines says the same without them.
theorem alike_of_around (header : Header) {block block' : List Char × List Char}
    (h : Around inserted back block block')
    (hsilent : ∀ line ∈ lines (inserted ++ ['\n']), Silent line)
    (henum : header.kind = .enumType → block.2.length < back.length →
      block.2.length + 1 = back.length ∧ EndsSame inserted) :
    Alike rules (header.declaration block.1) (header.declaration block'.1) := by
  cases h with
  | apart same =>
      rw [same]
      exact (Alike.equivalence rules).refl _
  | inside front rest hback hbody hbody' =>
      refine ⟨rfl, rfl, rfl, rfl, fun _ => ?_, fun hkind => ?_⟩
      · simp only [Header.declaration, hbody, hbody', fields_insert rules _ hsilent]
      · have hlength := congrArg List.length hback
        rw [List.length_append, List.length_cons] at hlength
        obtain ⟨hlast, hsame⟩ := henum hkind (by omega)
        have hrest : rest = [] := List.eq_nil_of_length_eq_zero (by omega)
        simp only [Header.declaration, hbody, hbody', hrest, hsame header.base front]

theorem sameLine_of_unseen (h : Unseen front inserted back)
    (henum : ¬InEnum (front ++ '\n' :: back) back)
    (hend : EndsEnum (front ++ '\n' :: back) back → EndsSame inserted) {line : List Char}
    (hline : line ∈ lineStarts front) :
    SameLine rules (front ++ '\n' :: back) (line ++ '\n' :: back)
      (line ++ '\n' :: (inserted ++ '\n' :: back)) := by
  cases opening line with
  | fails none =>
      refine .of_eq ?_
      rw [declares?_eq, declares?_eq, none, none]
  | goesOn header behind =>
      refine .of_eq ?_
      have hawaits : AwaitsBrace front := ⟨line, hline, (header, []), behind ['{'], rfl⟩
      rw [declares?_eq, declares?_eq, behind, behind, h.awaited hawaits]
  | finds header inner ends found =>
      have hblocks := h.enclosed hline (found [])
      rw [SameLine, declares?_eq, declares?_eq, found, found, Option.bind_some, Option.bind_some]
      generalize hclosed : enclosed? (inner ++ '\n' :: back) = closed at hblocks
      generalize enclosed? (inner ++ '\n' :: (inserted ++ '\n' :: back)) = closed' at hblocks
      cases hblocks with
      | none => exact .none
      | @some block block' haround =>
          refine .some ⟨rfl, rfl, fun horigin => alike_of_around header haround h.silent ?_⟩
          intro hkind hlength
          have hspan : (inner ++ '\n' :: back, block.2) ∈ enumSpans (front ++ '\n' :: back) := by
            have hmem : line ++ '\n' :: back ∈ lineStarts (front ++ '\n' :: back) := by
              rw [lineStarts_break]
              exact List.mem_append_left _ (List.mem_map_of_mem hline)
            exact mem_enumSpans hmem (found back) hkind (hkind ▸ horigin) hclosed
          have hlast : block.2.length + 1 = back.length := by
            by_contra hne
            refine henum ⟨_, hspan, ?_, ?_⟩
            · show block.2.length + 1 < back.length
              omega
            · simp only [List.length_append, List.length_cons]
              omega
          exact ⟨hlast, hend ⟨_, hspan, hlast⟩⟩

theorem filter_declares (hheaders : ∀ line ∈ lineStarts inserted, Header.read? line = none)
    (back : List Char) : ((lineStarts inserted).map (· ++ '\n' :: back)).filter
      (fun line => (declares? line).isSome) = [] := by
  refine List.filter_eq_nil_iff.mpr fun line hline => ?_
  obtain ⟨start, hstart, rfl⟩ := List.mem_map.mp hline
  rw [declares?_of_header (hheaders start hstart)]
  exact Bool.false_ne_true

-- Unseen lines change nothing that a look-up finds.
theorem agree_of_unseen (h : Unseen front inserted back)
    (henum : ¬InEnum (front ++ '\n' :: back) back)
    (hend : EndsEnum (front ++ '\n' :: back) back → EndsSame inserted) :
    Agree rules (Index.scan (front ++ '\n' :: back))
      (Index.scan (front ++ '\n' :: (inserted ++ '\n' :: back))) := by
  have hlines : List.Forall₂ (SameLine rules (front ++ '\n' :: back))
      (lineStarts (front ++ '\n' :: back))
      ((lineStarts front).map (· ++ '\n' :: (inserted ++ '\n' :: back)) ++ lineStarts back) := by
    rw [lineStarts_break]
    refine List.rel_append ?_ (List.forall₂_same.mpr fun _ _ => .of_eq rfl)
    refine List.forall₂_map_left_iff.mpr (List.forall₂_map_right_iff.mpr ?_)
    exact List.forall₂_same.mpr fun line hline => sameLine_of_unseen h henum hend hline
  refine agree_of_lines hlines ?_
  rw [lineStarts_break front, lineStarts_break inserted, List.filter_append, List.filter_append,
    List.filter_append, filter_declares h.headers, List.nil_append]

-- The same lines above a whole dump.
theorem agree_of_headers (hheaders : ∀ line ∈ lineStarts inserted, Header.read? line = none)
    (back : List Char) :
    Agree rules (Index.scan back) (Index.scan (inserted ++ '\n' :: back)) := by
  refine agree_of_lines (List.forall₂_same.mpr fun _ _ => SameLine.of_eq rfl) ?_
  rw [lineStarts_break, List.filter_append, filter_declares hheaders, List.nil_append]

-- A line break at the end of a dump.
theorem agree_finalBreak (text : List Char) :
    Agree rules (Index.scan text) (Index.scan (text ++ ['\n'])) := by
  have hempty : ([[]] : List (List Char)).filter (fun line => (declares? line).isSome) = [] := by
    decide +kernel
  have hlines : List.Forall₂ (SameLine rules text) (lineStarts text)
      ((lineStarts text).map (· ++ ['\n'])) := by
    refine List.forall₂_map_right_iff.mpr (List.forall₂_same.mpr fun line _ => .of_eq ?_)
    exact (declares?_finalBreak line).symm
  refine agree_of_lines hlines ?_
  have hbreak := lineStarts_break text []
  rw [hbreak, List.filter_append]
  exact (congrArg (_ ++ ·) hempty).trans (List.append_nil _)

-- Unseen lines at the end of a dump.
theorem agree_atEnd (h : Unseen front inserted []) :
    Agree rules (Index.scan front) (Index.scan (front ++ '\n' :: inserted)) := by
  have henum : ¬InEnum (front ++ ['\n']) [] := by
    rintro ⟨span, -, hlength, -⟩
    exact absurd hlength (Nat.not_lt_zero _)
  have hend : EndsEnum (front ++ ['\n']) [] → EndsSame inserted := by
    rintro ⟨span, -, hlength⟩
    exact absurd hlength (Nat.succ_ne_zero _)
  have hbreak : front ++ '\n' :: (inserted ++ ['\n']) = (front ++ '\n' :: inserted) ++ ['\n'] := by
    rw [List.append_assoc, List.cons_append]
  have hmiddle : Agree rules (Index.scan (front ++ ['\n']))
      (Index.scan ((front ++ '\n' :: inserted) ++ ['\n'])) :=
    hbreak ▸ agree_of_unseen h henum hend
  exact ((agree_finalBreak front).trans hmiddle).trans (agree_finalBreak _).symm

-- Lines put between other lines of a dump, at its front or at its end.
theorem agree_inserted {before after : List (List Char)}
    (hheaders : ∀ line ∈ lineStarts inserted, Header.read? line = none)
    (hunseen : before ≠ [] → Unseen (unlines before) inserted (unlines after))
    (henum : ¬InEnum (unlines (before ++ after)) (unlines after))
    (hend : EndsEnum (unlines (before ++ after)) (unlines after) → EndsSame inserted) :
    Agree rules (Index.scan (unlines (before ++ after)))
      (Index.scan (unlines (before ++ inserted :: after))) := by
  by_cases hbefore : before = []
  · subst hbefore
    by_cases hafter : after = []
    · subst hafter
      rw [List.append_nil, List.nil_append, unlines_singleton]
      exact (agree_of_headers hheaders []).trans (agree_finalBreak inserted).symm
    · rw [List.nil_append, List.nil_append, unlines_cons inserted hafter]
      exact agree_of_headers hheaders _
  · rw [unlines_append hbefore (List.cons_ne_nil inserted after)]
    by_cases hafter : after = []
    · subst hafter
      rw [List.append_nil, unlines_singleton]
      exact agree_atEnd (hunseen hbefore)
    · rw [unlines_append hbefore hafter] at henum hend ⊢
      rw [unlines_cons inserted hafter]
      exact agree_of_unseen (hunseen hbefore) henum hend

end

end TypeAtlas.Schema
