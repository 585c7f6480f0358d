import TypeAtlas.Proofs.Dump.Origin
import TypeAtlas.Proofs.Schema.Congruence

namespace TypeAtlas.Schema

open Dump Text

theorem find?_rel {α β : Type} {R : α → β → Prop} {p : α → Bool} {q : β → Bool} {xs : List α}
    {ys : List β} (h : List.Forall₂ R xs ys) (hpq : ∀ x y, R x y → p x = q y) :
    Option.Rel R (xs.find? p) (ys.find? q) := by
  induction h with
  | nil => exact .none
  | @cons x y _ _ hxy _ ih =>
      rw [List.find?_cons, List.find?_cons, ← hpq x y hxy]
      cases p x with
      | true => exact .some hxy
      | false => exact ih

-- Two lines that declare the same in two dumps. What a body says only has to agree where the index
-- of the first dump takes the declaration from this line.
def SameLine (rules : Rules) (text line line' : List Char) : Prop :=
  Option.Rel (fun d e => d.kind = e.kind ∧ d.name = e.name ∧
      (Index.origin? text d.kind d.name = some line → Alike rules d e))
    (declares? line) (declares? line')

theorem SameLine.any_isNamed {rules : Rules} {text line line' : List Char}
    (h : SameLine rules text line line') (kind : Kind) (name : String) :
    (declares? line).any (Declaration.isNamed kind name) =
      (declares? line').any (Declaration.isNamed kind name) := by
  unfold SameLine at h
  generalize declares? line = found at h
  generalize declares? line' = found' at h
  cases h with
  | none => rfl
  | @some d e hde =>
      obtain ⟨hkind, hname, -⟩ := hde
      simp only [Option.any_some, Declaration.isNamed, hkind, hname]

-- Dumps agree if they declare the same line by line. Lines that declare nothing may stand in the
-- second dump besides.
theorem agree_of_lines {rules : Rules} {first second : List Char} {lines : List (List Char)}
    (hlines : List.Forall₂ (SameLine rules first) (lineStarts first) lines)
    (hsecond : (lineStarts second).filter (fun line => (declares? line).isSome) =
      lines.filter fun line => (declares? line).isSome) :
    Agree rules (Index.scan first) (Index.scan second) := by
  intro kind name
  have hskip (texts : List (List Char)) :
      (texts.find? fun line => (declares? line).any (Declaration.isNamed kind name)) =
        (texts.filter fun line => (declares? line).isSome).find? fun line =>
          (declares? line).any (Declaration.isNamed kind name) := by
    rw [List.find?_filter]
    congr 1
    funext line
    cases declares? line with
    | none => rfl
    | some d => simp
  have horigin : Index.origin? second kind name =
      lines.find? fun line => (declares? line).any (Declaration.isNamed kind name) := by
    rw [Index.origin?, hskip, hsecond, ← hskip]
  have hrel := find?_rel hlines fun line line' h => h.any_isNamed kind name
  rw [← Index.origin?, ← horigin] at hrel
  rw [Index.get?_scan_eq, Index.get?_scan_eq]
  generalize hfound : Index.origin? first kind name = found at hrel
  generalize Index.origin? second kind name = found' at hrel
  cases hrel with
  | none => exact .none
  | @some line line' hsame =>
      have hnamed := List.find?_some hfound
      unfold SameLine at hsame
      rw [Option.bind_some, Option.bind_some]
      generalize declares? line = d at hsame hnamed
      generalize declares? line' = d' at hsame
      cases hsame with
      | none => exact .none
      | @some d e hde =>
          simp only [Option.any_some, Declaration.isNamed, Bool.and_eq_true, beq_iff_eq] at hnamed
          obtain ⟨-, -, halike⟩ := hde
          rw [hnamed.1, hnamed.2] at halike
          exact .some (halike hfound)

end TypeAtlas.Schema
