import TypeAtlas.Diff.Compare
import TypeAtlas.Proofs.NameMap

namespace TypeAtlas.Offset

-- Offsets differ in their values if both have one, otherwise in their texts.
inductive Differ (a b : String) : Prop
  | values {x y : UInt64} : parse? a = some x → parse? b = some y → x ≠ y → Differ a b
  | texts : parse? a = none ∨ parse? b = none → a ≠ b → Differ a b

theorem same_eq_false_iff {a b : String} : same a b = false ↔ Differ a b := by
  constructor
  · intro h
    cases ha : parse? a with
    | none =>
        simp only [same, ha, beq_eq_false_iff_ne] at h
        exact .texts (Or.inl ha) h
    | some x =>
        cases hb : parse? b with
        | none =>
            simp only [same, ha, hb, beq_eq_false_iff_ne] at h
            exact .texts (Or.inr hb) h
        | some y =>
            simp only [same, ha, hb, beq_eq_false_iff_ne] at h
            exact .values ha hb h
  · intro h
    cases h with
    | values ha hb hne => simpa [same, ha, hb] using hne
    | texts hnone hne =>
        rcases hnone with ha | hb
        · simpa [same, ha] using hne
        · cases ha : parse? a <;> simpa [same, ha, hb] using hne

end TypeAtlas.Offset

namespace TypeAtlas.Diff

variable {α : Type}

theorem mem_onlyIn_iff {map other : NameMap α} {name : String} {value : α} :
    (name, value) ∈ onlyIn map other ↔ map.get? name = some value ∧ other.get? name = none := by
  simp only [onlyIn, List.mem_filter, Bool.not_eq_true', NameMap.get?_eq_none_iff,
    NameMap.get?_eq_some_iff]

theorem mem_common_iff {old new : NameMap α} {name : String} {was now : α} :
    (name, was, now) ∈ common old new ↔
      old.get? name = some was ∧ new.get? name = some now := by
  simp only [common, List.mem_filterMap, Option.map_eq_some_iff, Prod.mk.injEq, Prod.exists,
    NameMap.get?_eq_some_iff]
  constructor
  · rintro ⟨name, was, hwas, now, hnow, rfl, rfl, rfl⟩
    exact ⟨hwas, hnow⟩
  · rintro ⟨hwas, hnow⟩
    exact ⟨name, was, hwas, now, hnow, rfl, rfl, rfl⟩

theorem mem_group_iff {count : Nat → Change} {each : String × α → Change}
    {names : List (String × α)} {change : Change} :
    change ∈ group count each names ↔
      names ≠ [] ∧ (change = count names.length ∨ ∃ entry ∈ names, each entry = change) := by
  cases names with
  | nil => simp [group]
  | cons head rest => simp [group, eq_comm]

-- The definition of a field that is listed last.
def lastField? (fields : List Schema.Field) (name : String) : Option Schema.Field :=
  fields.reverse.find? fun field => field.name == name

theorem get?_fieldsByName (template : Schema.Template) (name : String) :
    (fieldsByName template).get? name = lastField? template.fields name := by
  rw [fieldsByName, NameMap.get?_ofList, ← List.map_reverse, List.find?_map, Option.map_map]
  exact Option.map_id'

end TypeAtlas.Diff
