import Mathlib.Tactic.ByContra
import TypeAtlas.Proofs.Diff.Compare

namespace TypeAtlas.Diff

open Schema (Enum Struct Template)

def AnyCritical (changes : List Change) : Prop :=
  ∃ change ∈ changes, change.severity = .crit

theorem anyCritical_append {front back : List Change} :
    AnyCritical (front ++ back) ↔ AnyCritical front ∨ AnyCritical back := by
  simp only [AnyCritical, List.mem_append, or_and_right, exists_or]

theorem hasCritical_iff {diff : Diff} :
    diff.hasCritical = true ↔
      AnyCritical diff.enums ∨ AnyCritical diff.structs ∨ AnyCritical diff.templates := by
  rw [← or_assoc, ← anyCritical_append, ← anyCritical_append]
  simp only [hasCritical, criticalCount, decide_eq_true_eq, List.countP_pos_iff]
  rfl

section

variable {α : Type} {old new : NameMap α}

-- New and removed names are not critical.
theorem not_anyCritical_addedAndRemoved {grain : Grain} {each : String × α → Change}
    (heach : ∀ entry, (each entry).severity = .info) :
    ¬AnyCritical (addedAndRemoved grain each old new) := by
  rintro ⟨change, hmem, hcrit⟩
  simp only [addedAndRemoved, List.mem_append, mem_group_iff] at hmem
  rcases hmem with ⟨-, rfl | ⟨entry, -, rfl⟩⟩ | ⟨-, rfl | ⟨entry, -, rfl⟩⟩
  · cases hcrit
  · rw [heach] at hcrit
    cases hcrit
  · cases hcrit
  · cases hcrit

-- So a section is as critical as what stands under the names of both sides.
theorem anyCritical_section_iff {grain : Grain} {each : String × α → Change}
    {compare : String × α × α → List Change} (heach : ∀ entry, (each entry).severity = .info) :
    AnyCritical (addedAndRemoved grain each old new ++ (common old new).flatMap compare) ↔
      ∃ name was now, old.get? name = some was ∧ new.get? name = some now ∧
        AnyCritical (compare (name, was, now)) := by
  rw [anyCritical_append]
  constructor
  · rintro (hquiet | ⟨change, hmem, hcrit⟩)
    · exact absurd hquiet (not_anyCritical_addedAndRemoved heach)
    · obtain ⟨⟨name, was, now⟩, hcommon, hchange⟩ := List.mem_flatMap.mp hmem
      obtain ⟨hwas, hnow⟩ := mem_common_iff.mp hcommon
      exact ⟨name, was, now, hwas, hnow, change, hchange, hcrit⟩
  · rintro ⟨name, was, now, hwas, hnow, change, hchange, hcrit⟩
    have hcommon : (name, was, now) ∈ common old new := mem_common_iff.mpr ⟨hwas, hnow⟩
    exact Or.inr ⟨change, List.mem_flatMap.mpr ⟨_, hcommon, hchange⟩, hcrit⟩

end

theorem anyCritical_storageChange_iff {name : String} {was now : Enum} :
    AnyCritical (storageChange name was now) ↔ was.underlyingType ≠ now.underlyingType := by
  by_cases h : was.underlyingType = now.underlyingType
  · simp [AnyCritical, storageChange, h]
  · simp [AnyCritical, storageChange, h, Change.severity]

theorem mem_renumbered_iff {was now : Enum} {v : String} {a b : Int64} :
    (v, a, b) ∈ ((common was.values now.values).filter fun (_, a, b) => a ≠ b) ↔
      was.values.get? v = some a ∧ now.values.get? v = some b ∧ a ≠ b := by
  simp only [List.mem_filter, mem_common_iff, decide_eq_true_eq, and_assoc]

theorem anyCritical_valueChanges_iff {name : String} {was now : Enum} :
    AnyCritical (valueChanges name was now) ↔
      ∃ v a b, was.values.get? v = some a ∧ now.values.get? v = some b ∧ a ≠ b := by
  constructor
  · rintro ⟨change, hmem, hcrit⟩
    simp only [valueChanges] at hmem
    split at hmem
    · cases hmem
    · simp only [List.cons_append, List.mem_cons, List.mem_append, List.mem_map] at hmem
      rcases hmem with rfl | (⟨entry, -, rfl⟩ | ⟨entry, -, rfl⟩) | ⟨⟨v, a, b⟩, hentry, rfl⟩
      · cases hcrit
      · cases hcrit
      · cases hcrit
      · exact ⟨v, a, b, mem_renumbered_iff.mp hentry⟩
  · rintro ⟨v, a, b, hvalues⟩
    have hmem := mem_renumbered_iff.mpr hvalues
    refine ⟨.renumbered v a b, ?_, rfl⟩
    simp only [valueChanges]
    rw [if_neg]
    · exact List.mem_append_right _ (List.mem_map.mpr ⟨_, hmem, rfl⟩)
    · intro hnone
      simp only [Bool.and_eq_true, List.isEmpty_iff] at hnone
      rw [hnone.2] at hmem
      cases hmem

theorem anyCritical_compareEnums_iff {old new : NameMap Enum} :
    AnyCritical (compareEnums old new) ↔
      ∃ name was now, old.get? name = some was ∧ new.get? name = some now ∧
        (was.underlyingType ≠ now.underlyingType ∨
          ∃ v a b, was.values.get? v = some a ∧ now.values.get? v = some b ∧ a ≠ b) := by
  rw [compareEnums, anyCritical_section_iff fun _ => rfl]
  simp only [anyCritical_append, anyCritical_storageChange_iff, anyCritical_valueChanges_iff]

theorem anyCritical_compareStructs_iff {old new : NameMap Struct} :
    AnyCritical (compareStructs old new) ↔
      ∃ name was now, old.get? name = some was ∧ new.get? name = some now ∧
        was.size ≠ now.size := by
  have hsize (name : String) (was now : Struct) :
      AnyCritical (if was.size = now.size then [] else [.size name was.size now.size]) ↔
        was.size ≠ now.size := by
    by_cases h : was.size = now.size
    · simp [AnyCritical, h]
    · simp [AnyCritical, h, Change.severity]
  rw [compareStructs, anyCritical_section_iff fun _ => rfl]
  simp only [hsize]

theorem mem_movedFields_iff {was now : Template} {name : String} {a b : Schema.Field} :
    (name, a, b) ∈ movedFields was now ↔ lastField? was.fields name = some a ∧
      lastField? now.fields name = some b ∧ Offset.Differ a.offset b.offset := by
  simp only [movedFields, List.mem_filter, mem_common_iff, get?_fieldsByName, isMoved,
    Bool.not_eq_true', Offset.same_eq_false_iff, and_assoc]

-- Of what changed in a template only moved fields are critical.
theorem anyCritical_templateChanges_iff {name : String} {was now : Template} :
    AnyCritical (templateChanges name was now) ↔ ∃ entry, entry ∈ movedFields was now := by
  constructor
  · rintro ⟨change, hmem, hcrit⟩
    simp only [templateChanges] at hmem
    split at hmem
    · cases hmem
    · simp only [fieldChanges, List.mem_cons, List.mem_append, List.mem_map] at hmem
      rcases hmem with
        rfl | ((⟨entry, -, rfl⟩ | ⟨entry, -, rfl⟩) | ⟨entry, hentry, -⟩) | ⟨entry, -, rfl⟩
      · cases hcrit
      · cases hcrit
      · cases hcrit
      · exact ⟨entry, hentry⟩
      · cases hcrit
  · rintro ⟨⟨field, a, b⟩, hentry⟩
    have hmem : Change.moved field a b ∈ fieldChanges was now := by
      simp only [fieldChanges, List.mem_append]
      exact Or.inl (Or.inr (List.mem_map.mpr ⟨_, hentry, rfl⟩))
    refine ⟨.moved field a b, ?_, rfl⟩
    simp only [templateChanges]
    rw [if_neg]
    · exact List.mem_cons_of_mem _ hmem
    · intro hnone
      rw [List.isEmpty_iff.mp hnone] at hmem
      cases hmem

theorem moveCount_eq_zero_iff {old new : NameMap Template} :
    moveCount old new = 0 ↔
      ∀ name was now, old.get? name = some was → new.get? name = some now →
        movedFields was now = [] := by
  simp only [moveCount, List.length_eq_zero_iff, List.flatMap_eq_nil_iff]
  constructor
  · intro h name was now hwas hnow
    exact h (name, was, now) (mem_common_iff.mpr ⟨hwas, hnow⟩)
  · rintro h ⟨name, was, now⟩ hcommon
    obtain ⟨hwas, hnow⟩ := mem_common_iff.mp hcommon
    exact h name was now hwas hnow

theorem anyCritical_compareTemplates_iff {old new : NameMap Template} :
    AnyCritical (compareTemplates old new) ↔
      ∃ name was now, old.get? name = some was ∧ new.get? name = some now ∧
        ∃ field a b, lastField? was.fields field = some a ∧ lastField? now.fields field = some b ∧
          Offset.Differ a.offset b.offset := by
  simp only [← mem_movedFields_iff]
  rw [compareTemplates, List.append_assoc, anyCritical_append, anyCritical_section_iff fun _ => rfl]
  simp only [anyCritical_templateChanges_iff, Prod.exists]
  -- The count in front is there only if some field moved.
  apply or_iff_right_of_imp
  rintro ⟨change, hmem, -⟩
  by_contra hnone
  have hzero : moveCount old new = 0 := by
    refine moveCount_eq_zero_iff.mpr fun name was now hwas hnow => ?_
    apply List.eq_nil_iff_forall_not_mem.mpr
    rintro ⟨field, a, b⟩ hentry
    exact hnone ⟨name, was, now, hwas, hnow, field, a, b, hentry⟩
  simp [hzero] at hmem

-- What makes data of an old schema read wrongly under a new one.
inductive Breaks (old new : Schema) : Prop
  | storage {name : String} {was now : Enum} :
      old.enums.get? name = some was → new.enums.get? name = some now →
      was.underlyingType ≠ now.underlyingType → Breaks old new
  | value {name value : String} {was now : Enum} {a b : Int64} :
      old.enums.get? name = some was → new.enums.get? name = some now →
      was.values.get? value = some a → now.values.get? value = some b → a ≠ b → Breaks old new
  | size {name : String} {was now : Struct} :
      old.structs.get? name = some was → new.structs.get? name = some now →
      was.size ≠ now.size → Breaks old new
  | offset {name field : String} {was now : Template} {a b : Schema.Field} :
      old.templates.get? name = some was → new.templates.get? name = some now →
      lastField? was.fields field = some a → lastField? now.fields field = some b →
      Offset.Differ a.offset b.offset → Breaks old new

theorem hasCritical_between_iff {old new : Schema} :
    (between old new).hasCritical = true ↔ Breaks old new := by
  rw [hasCritical_iff, between, anyCritical_compareEnums_iff, anyCritical_compareStructs_iff,
    anyCritical_compareTemplates_iff]
  constructor
  · rintro (⟨name, was, now, hwas, hnow, hstorage | ⟨v, a, b, ha, hb, hne⟩⟩ |
      ⟨name, was, now, hwas, hnow, hsize⟩ | ⟨name, was, now, hwas, hnow, field, a, b, ha, hb, hoffset⟩)
    · exact .storage hwas hnow hstorage
    · exact .value hwas hnow ha hb hne
    · exact .size hwas hnow hsize
    · exact .offset hwas hnow ha hb hoffset
  · intro h
    cases h with
    | storage hwas hnow hstorage => exact Or.inl ⟨_, _, _, hwas, hnow, Or.inl hstorage⟩
    | value hwas hnow ha hb hne =>
        exact Or.inl ⟨_, _, _, hwas, hnow, Or.inr ⟨_, _, _, ha, hb, hne⟩⟩
    | size hwas hnow hsize => exact Or.inr (Or.inl ⟨_, _, _, hwas, hnow, hsize⟩)
    | offset hwas hnow ha hb hoffset =>
        exact Or.inr (Or.inr ⟨_, _, _, hwas, hnow, _, _, _, ha, hb, hoffset⟩)

end TypeAtlas.Diff
