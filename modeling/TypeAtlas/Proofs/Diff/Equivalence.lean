import TypeAtlas.Proofs.Diff.Critical
import TypeAtlas.Proofs.NameMap.Related
import TypeAtlas.Proofs.Offset

namespace TypeAtlas.Diff

open NameMap (Related)
open Schema (Enum Struct Template Field)

variable {α : Type}

theorem onlyIn_eq_nil_iff {map other : NameMap α} :
    onlyIn map other = [] ↔ ∀ name, other.get? name = none → map.get? name = none := by
  simp only [List.eq_nil_iff_forall_not_mem, Prod.forall, mem_onlyIn_iff, not_and,
    Option.eq_none_iff_forall_ne_some]
  grind

-- Nothing is new, nothing is gone, and what both sides have is related.
theorem unchanged_iff {R : α → α → Prop} {old new : NameMap α} :
    (onlyIn new old = [] ∧ onlyIn old new = [] ∧
        ∀ entry ∈ common old new, R entry.2.1 entry.2.2) ↔ Related R old new := by
  have hname (name : String) : Option.Rel R (old.get? name) (new.get? name) ↔
      (old.get? name = none → new.get? name = none) ∧
      (new.get? name = none → old.get? name = none) ∧
      ∀ was now, old.get? name = some was → new.get? name = some now → R was now := by
    cases old.get? name <;> cases new.get? name <;> simp
  simp only [Related, hname, forall_and, onlyIn_eq_nil_iff, Prod.forall, mem_common_iff, and_imp]

theorem group_eq_nil_iff {count : Nat → Change} {each : String × α → Change}
    {names : List (String × α)} : group count each names = [] ↔ names = [] := by
  cases names <;> simp [group]

-- A section says nothing exactly if it says nothing of what stands under each name.
theorem section_eq_nil_iff {R : α → α → Prop} {grain : Grain} {each : String × α → Change}
    {compare : String × α × α → List Change}
    (hcompare : ∀ entry, compare entry = [] ↔ R entry.2.1 entry.2.2) {old new : NameMap α} :
    addedAndRemoved grain each old new ++ (common old new).flatMap compare = [] ↔
      Related R old new := by
  simp only [← unchanged_iff, ← hcompare]
  rw [addedAndRemoved, List.append_eq_nil_iff, List.append_eq_nil_iff, group_eq_nil_iff,
    group_eq_nil_iff, List.flatMap_eq_nil_iff, and_assoc]

theorem storageChange_eq_nil_iff {name : String} {was now : Enum} :
    storageChange name was now = [] ↔ was.underlyingType = now.underlyingType := by
  by_cases h : was.underlyingType = now.underlyingType <;> simp [storageChange, h]

theorem valueChanges_eq_nil_iff {name : String} {was now : Enum} :
    valueChanges name was now = [] ↔ was.values = now.values := by
  rw [← NameMap.related_eq_iff, ← unchanged_iff]
  simp [valueChanges, List.filter_eq_nil_iff, and_assoc]

theorem compareEnums_eq_nil_iff {old new : NameMap Enum} :
    compareEnums old new = [] ↔ old = new := by
  rw [← NameMap.related_eq_iff]
  refine section_eq_nil_iff ?_
  rintro ⟨name, ⟨type, values⟩, ⟨type', values'⟩⟩
  simp [storageChange_eq_nil_iff, valueChanges_eq_nil_iff]

theorem compareStructs_eq_nil_iff {old new : NameMap Struct} :
    compareStructs old new = [] ↔ Related (fun was now => was.size = now.size) old new :=
  section_eq_nil_iff fun (_, was, now) => by simp

-- A field with the same type at the same offset.
structure SameField (a b : Field) : Prop where
  declaredType : a.declaredType = b.declaredType
  offset : ¬Offset.Differ a.offset b.offset

theorem sameField_iff {a b : Field} :
    SameField a b ↔ a.declaredType = b.declaredType ∧ Offset.same a.offset b.offset = true := by
  have hoffset : ¬Offset.Differ a.offset b.offset ↔ Offset.same a.offset b.offset = true := by
    rw [← Offset.same_eq_false_iff, Bool.not_eq_false]
  rw [← hoffset]
  exact ⟨fun h => ⟨h.1, h.2⟩, fun h => ⟨h.1, h.2⟩⟩

-- Templates with the same names of fields, and the same last definition of each.
def SameFields (was now : Template) : Prop :=
  ∀ name, Option.Rel SameField (lastField? was.fields name) (lastField? now.fields name)

theorem sameFields_iff {was now : Template} :
    SameFields was now ↔ Related SameField (fieldsByName was) (fieldsByName now) := by
  simp only [SameFields, Related, get?_fieldsByName]

theorem neither_moved_nor_retyped_iff {a b : Field} :
    isMoved a b = false ∧ (!isMoved a b && a.declaredType ≠ b.declaredType) = false ↔
      SameField a b := by
  rw [sameField_iff]
  cases h : isMoved a b <;> simp_all [isMoved]

theorem fieldChanges_eq_nil_iff {was now : Template} :
    fieldChanges was now = [] ↔ SameFields was now := by
  have hfields : (movedFields was now = [] ∧ retypedFields was now = []) ↔
      ∀ entry ∈ common (fieldsByName was) (fieldsByName now), SameField entry.2.1 entry.2.2 := by
    simp only [movedFields, retypedFields, List.filter_eq_nil_iff, ← forall_and,
      ← neither_moved_nor_retyped_iff, Bool.not_eq_true]
  rw [sameFields_iff, ← unchanged_iff, ← hfields]
  simp [fieldChanges]

theorem templateChanges_eq_nil_iff {name : String} {was now : Template} :
    templateChanges name was now = [] ↔ SameFields was now := by
  rw [← fieldChanges_eq_nil_iff]
  cases h : fieldChanges was now <;> simp [templateChanges, h]

theorem compareTemplates_eq_nil_iff {old new : NameMap Template} :
    compareTemplates old new = [] ↔ Related SameFields old new := by
  rw [compareTemplates, List.append_assoc, List.append_eq_nil_iff,
    section_eq_nil_iff fun _ => templateChanges_eq_nil_iff]
  -- The count in front is there only if some field moved.
  apply and_iff_right_of_imp
  intro h
  have hzero : moveCount old new = 0 := by
    refine moveCount_eq_zero_iff.mpr fun name was now hwas hnow => ?_
    have hsame := h name
    rw [hwas, hnow, Option.rel_some_some] at hsame
    have hnil := fieldChanges_eq_nil_iff.mpr hsame
    simp only [fieldChanges, List.append_eq_nil_iff, List.map_eq_nil_iff] at hnil
    exact hnil.1.2
  simp [hzero]

-- Schemas that a comparison does not tell apart.
structure Alike (a b : Schema) : Prop where
  enums : a.enums = b.enums
  structs : Related (fun was now => was.size = now.size) a.structs b.structs
  templates : Related SameFields a.templates b.templates

theorem isEmpty_between_iff {a b : Schema} : (between a b).isEmpty = true ↔ Alike a b := by
  simp only [isEmpty, changes, between, List.isEmpty_iff, List.append_eq_nil_iff,
    compareEnums_eq_nil_iff, compareStructs_eq_nil_iff, compareTemplates_eq_nil_iff]
  exact ⟨fun h => ⟨h.1.1, h.1.2, h.2⟩, fun h => ⟨⟨h.1, h.2⟩, h.3⟩⟩

theorem sameField_equivalence : Equivalence SameField where
  refl _ := sameField_iff.mpr ⟨rfl, Offset.same_equivalence.refl _⟩
  symm h := by
    obtain ⟨htype, hoffset⟩ := sameField_iff.mp h
    exact sameField_iff.mpr ⟨htype.symm, Offset.same_equivalence.symm hoffset⟩
  trans hab hbc := by
    obtain ⟨htype, hoffset⟩ := sameField_iff.mp hab
    obtain ⟨htype', hoffset'⟩ := sameField_iff.mp hbc
    exact sameField_iff.mpr
      ⟨htype.trans htype', Offset.same_equivalence.trans hoffset hoffset'⟩

theorem sameFields_equivalence : Equivalence SameFields :=
  Lookup.equivalence sameField_equivalence fun template : Template => lastField? template.fields

theorem alike_equivalence : Equivalence Alike := by
  have hsizes : Equivalence fun was now : Struct => was.size = now.size :=
    ⟨fun _ => rfl, Eq.symm, Eq.trans⟩
  have hstructs := Lookup.equivalence hsizes fun schema : Schema => schema.structs.get?
  have htemplates :=
    Lookup.equivalence sameFields_equivalence fun schema : Schema => schema.templates.get?
  refine ⟨fun a => ?_, fun h => ?_, fun h h' => ?_⟩
  · exact ⟨rfl, hstructs.refl a, htemplates.refl a⟩
  · exact ⟨h.enums.symm, hstructs.symm h.structs, htemplates.symm h.templates⟩
  · exact ⟨h.enums.trans h'.enums, hstructs.trans h.structs h'.structs,
      htemplates.trans h.templates h'.templates⟩

-- An empty comparison means the same schemas, as far as a comparison looks.
theorem empty_between_characterized :
    (∀ a b : Schema, (between a b).isEmpty = true ↔ Alike a b) ∧
      (∀ schema : Schema, (between schema schema).isEmpty = true) ∧
      Equivalence fun a b : Schema => (between a b).isEmpty = true := by
  refine ⟨fun _ _ => isEmpty_between_iff, fun schema => ?_, ?_⟩
  · exact isEmpty_between_iff.mpr (alike_equivalence.refl schema)
  · simp only [isEmpty_between_iff]
    exact alike_equivalence

end TypeAtlas.Diff
