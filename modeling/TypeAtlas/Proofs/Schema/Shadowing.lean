import Mathlib.Data.List.FinRange
import TypeAtlas.Proofs.Schema.ClassWalk
import TypeAtlas.Proofs.Schema.Flattening

namespace TypeAtlas.Schema

open Dump

variable {listed : List RawField}

-- Adds a field behind others, of which it hides those of its name.
def shadow (kept : List RawField) (field : RawField) : List RawField :=
  kept.filter (fun other => other.name ≠ field.name) ++ [field]

-- Hiding turn by turn leaves the last of each name.
theorem foldl_shadow (listed : List RawField) : listed.foldl shadow [] = keepLast listed := by
  induction listed using List.reverseRecOn with
  | nil => rfl
  | append_singleton front field ih =>
      rw [List.foldl_append, ih, keepLast_append, List.foldl_cons, List.foldl_nil, shadow]
      simp [declares, keepLast, beq_eq_decide, eq_comm]

-- No field further back has the name of the field at a place.
def IsLast (listed : List RawField) (place : Fin listed.length) : Prop :=
  ∀ later, place < later → listed[later].name ≠ listed[place].name

instance (place : Fin listed.length) : Decidable (IsLast listed place) :=
  inferInstanceAs (Decidable (∀ later, place < later → listed[later].name ≠ listed[place].name))

def lastPlaces (listed : List RawField) : List (Fin listed.length) :=
  (List.finRange listed.length).filter fun place => IsLast listed place

section

variable {field : RawField} {rest : List RawField}

theorem isLast_zero : IsLast (field :: rest) 0 ↔ declares rest field.name = false := by
  simp [IsLast, Fin.forall_fin_succ, declares, List.any_eq_false, List.forall_mem_iff_getElem,
    Fin.forall_iff]

theorem isLast_succ {place : Fin rest.length} :
    IsLast (field :: rest) place.succ ↔ IsLast rest place := by
  simp [IsLast, Fin.forall_fin_succ]

theorem lastPlaces_cons (field : RawField) (rest : List RawField) :
    lastPlaces (field :: rest) =
      if declares rest field.name then (lastPlaces rest).map Fin.succ
      else 0 :: (lastPlaces rest).map Fin.succ := by
  have hplaces : List.finRange (field :: rest).length =
      (0 : Fin (rest.length + 1)) :: (List.finRange rest.length).map Fin.succ :=
    List.finRange_succ
  have hbehind : (fun place => decide (IsLast (field :: rest) place)) ∘ Fin.succ =
      fun place => decide (IsLast rest place) :=
    funext fun place => decide_eq_decide.mpr isLast_succ
  rw [lastPlaces, hplaces, List.filter_cons, List.filter_map, hbehind]
  simp only [isLast_zero]
  cases declares rest field.name <;> rfl

end

theorem keepLast_eq_map_lastPlaces (listed : List RawField) :
    keepLast listed = (lastPlaces listed).map listed.get := by
  induction listed with
  | nil => rfl
  | cons field rest ih =>
      rw [keepLast_cons, lastPlaces_cons, ih]
      split <;> simp

-- The fields of a class and of those above it, the topmost first.
def inherited (rules : Rules) (steps : List Declaration) : List RawField :=
  steps.reverse.flatMap fun d => fields rules .classType d.body

-- What is left of the fields of a class and of those above it: of each name the last, in its place.
structure Flattened (rules : Rules) (steps : List Declaration) (kept : List RawField) : Prop where
  places : kept = (lastPlaces (inherited rules steps)).map (inherited rules steps).get
  turns : kept = steps.reverse.foldl
    (fun above d => (fields rules .classType d.body).foldl shadow above) []
  distinct : (kept.map RawField.name).Nodup
  complete : ∀ name, declares kept name = true ↔
    ∃ d ∈ steps, declares (fields rules .classType d.body) name = true

theorem keepLast_flattened (rules : Rules) (steps : List Declaration) :
    Flattened rules steps (keepLast (inherited rules steps)) where
  places := keepLast_eq_map_lastPlaces _
  turns := by rw [← foldl_shadow, inherited, List.foldl_flatMap]
  distinct := names_keepLast_nodup _
  complete name := by
    rw [declares_keepLast, inherited, declares, List.any_flatMap, List.any_reverse,
      List.any_eq_true]
    rfl

-- The fields of a class are those of the one walk upward from it, of each name the last.
theorem collectFields_flattened (rules : Rules) (index : Index) (name : String) :
    (∀ steps, ClassWalk rules index name steps ↔ steps = (baseWalk rules index name).steps) ∧
      Flattened rules (baseWalk rules index name).steps (collectFields rules index name) := by
  refine ⟨fun _ => classWalk_iff, ?_⟩
  rw [collectFields_eq_keepLast]
  exact keepLast_flattened rules _

end TypeAtlas.Schema
