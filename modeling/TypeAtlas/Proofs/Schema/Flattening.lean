import TypeAtlas.Proofs.Dump.Nesting
import TypeAtlas.Proofs.Schema.Hierarchy
import TypeAtlas.Proofs.Schema.Survey

namespace TypeAtlas.Schema

open Dump

def declares (fields : List RawField) (name : String) : Bool :=
  fields.any fun field => field.name == name

theorem declares_iff {fields : List RawField} {name : String} :
    declares fields name = true ↔ ∃ field ∈ fields, field.name = name := by
  simp only [declares, List.any_eq_true, beq_iff_eq]

theorem keepLast_cons (field : RawField) (rest : List RawField) :
    keepLast (field :: rest) =
      if declares rest field.name then keepLast rest else field :: keepLast rest := rfl

theorem keepLast_sublist (fields : List RawField) : (keepLast fields).Sublist fields := by
  induction fields with
  | nil => exact List.Sublist.slnil
  | cons field rest ih =>
      rw [keepLast_cons]
      split
      · exact ih.cons field
      · exact ih.cons_cons field

theorem declares_keepLast {fields : List RawField} {name : String} :
    declares (keepLast fields) name = declares fields name := by
  induction fields with
  | nil => rfl
  | cons field rest ih =>
      have hdeclares : declares (field :: rest) name =
          ((field.name == name) || declares rest name) := List.any_cons
      rw [hdeclares, keepLast_cons]
      split
      · rename_i hhidden
        by_cases hname : field.name = name
        · rw [ih, ← hname, hhidden, Bool.or_true]
        · rw [ih, beq_false_of_ne hname, Bool.false_or]
      · rw [← ih]
        exact List.any_cons

theorem names_keepLast_nodup (fields : List RawField) :
    ((keepLast fields).map RawField.name).Nodup := by
  induction fields with
  | nil => exact List.nodup_nil
  | cons field rest ih =>
      rw [keepLast_cons]
      split
      · exact ih
      · rename_i hlast
        refine List.nodup_cons.mpr ⟨?_, ih⟩
        intro hmem
        obtain ⟨other, hother, hname⟩ := List.mem_map.mp hmem
        exact hlast (declares_iff.mpr ⟨other, (keepLast_sublist rest).subset hother, hname⟩)

-- What stands further back hides fields in front of it, whichever of those were kept.
theorem keepLast_append (front back : List RawField) :
    keepLast (front ++ back) =
      (keepLast front).filter (fun field => !declares back field.name) ++ keepLast back := by
  induction front with
  | nil => rfl
  | cons field rest ih =>
      have hdeclares : declares (rest ++ back) field.name =
          (declares rest field.name || declares back field.name) := List.any_append
      rw [List.cons_append, keepLast_cons, keepLast_cons, hdeclares, ih]
      by_cases hrest : declares rest field.name
      · simp [hrest]
      · by_cases hback : declares back field.name
        · simp [hrest, hback]
        · simp [hrest, hback]

theorem collectFields_eq_keepLast (rules : Rules) (index : Index) (name : String) :
    collectFields rules index name = keepLast ((baseWalk rules index name).steps.reverse.flatMap
      fun d => fields rules .classType d.body) := by
  rw [collectFields, Flattening.fields, flatten, List.flatMap_map]
  rfl

end TypeAtlas.Schema
