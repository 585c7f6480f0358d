import TypeAtlas.Proofs.Command.Diff

namespace TypeAtlas.Diff

open Schema (Field Struct Template)

-- A list that defines a field by some name once.
def Once (fields : List Field) (name : String) (field : Field) : Prop :=
  fields.filter (fun other => other.name == name) = [field]

theorem Once.lastField?_eq {fields : List Field} {name : String} {field : Field}
    (h : Once fields name field) : lastField? fields name = some field := by
  rw [lastField?, ← List.head?_filter, List.filter_reverse, h]
  rfl

-- Some field that each side defines once stands at offsets with different values.
inductive MovesField (was now : List Field) : Prop
  | intro (name : String) {a b : Field} {x y : UInt64} :
      Once was name a → Once now name b → Offset.parse? a.offset = some x →
      Offset.parse? b.offset = some y → x ≠ y → MovesField was now

-- Where moved fields are looked for: in templates, and in structs whose sizes differ.
inductive MovesKnown (old new : Schema) : Prop
  | template {name : String} {was now : Template} :
      old.templates.get? name = some was → new.templates.get? name = some now →
      MovesField was.fields now.fields → MovesKnown old new
  | struct {name : String} {was now : Struct} :
      old.structs.get? name = some was → new.structs.get? name = some now →
      MovesField was.fields now.fields → was.size ≠ now.size → MovesKnown old new

theorem MovesKnown.breaks {old new : Schema} (h : MovesKnown old new) : Breaks old new := by
  cases h with
  | template hwas hnow hmoves =>
      obtain ⟨_, ha, hb, hx, hy, hne⟩ := hmoves
      exact .offset hwas hnow ha.lastField?_eq hb.lastField?_eq (.values hx hy hne)
  | struct hwas hnow _ hsize => exact .size hwas hnow hsize

theorem anyCritical_changes_iff {diff : Diff} :
    AnyCritical diff.changes ↔ diff.hasCritical = true := by
  rw [hasCritical_iff, changes, anyCritical_append, anyCritical_append, or_assoc]

end TypeAtlas.Diff

namespace TypeAtlas.Command

open Diff (MovesKnown MovesField)

-- A moved field of a template, or of a struct whose size changes with it, is a critical change and
-- makes a comparison of the files exit with 2.
theorem moved_field_fails {old new : Schema} (h : MovesKnown old new) :
    (∃ change ∈ (Diff.between old new).changes, change.severity = .crit) ∧
      ∀ (oldPath newPath : String) (json : Bool) (tree : FileTree),
        ((loadSchema oldPath : Action (StateM FileTree) Schema).run.run tree).1 = .ok old →
        ((loadSchema newPath : Action (StateM FileTree) Schema).run.run tree).1 = .ok new →
        ∃ outcome : Outcome,
          (diffSchemas oldPath newPath json : Action (StateM FileTree) Outcome).run.run tree =
            (.ok outcome, tree) ∧ outcome.code = 2 := by
  have hcritical := Diff.hasCritical_between_iff.mpr h.breaks
  refine ⟨Diff.anyCritical_changes_iff.mpr hcritical, ?_⟩
  intro oldPath newPath json tree hold hnew
  obtain ⟨output, hrun⟩ := diffSchemas_run json hold hnew
  exact ⟨_, hrun, if_pos hcritical⟩

-- A template, a struct of two fields and an embedded class, with the offsets of their fields.
def layout (hp speed armor count : String) : Schema :=
  { Schema.empty with
    structs := .ofList [("Stats", ⟨8, [intField "speed" speed, intField "armor" armor]⟩)]
    embedded := .ofList [("Loot", ⟨none, [intField "count" count]⟩)]
    templates := .ofList [("UnitTemplate", ⟨none, false, [intField "hp" hp]⟩)] }

def oldLayout : Schema :=
  layout "0x10" "0x0" "0x4" "0x10"

theorem moved_hp_fails :
    MovesKnown oldLayout (layout "0x14" "0x0" "0x4" "0x10") ∧
      ∃ tree outcome,
        (diffSchemas "old.json" "new.json" false : Action (StateM FileTree) Outcome).run.run tree =
          (.ok outcome, tree) ∧ outcome.code = 2 := by
  have hx : Offset.parse? "0x10" = some 0x10 := by decide +kernel
  have hy : Offset.parse? "0x14" = some 0x14 := by decide +kernel
  have hhp : MovesField [intField "hp" "0x10"] [intField "hp" "0x14"] :=
    .intro "hp" rfl rfl hx hy (by decide)
  have hwas : oldLayout.templates.get? "UnitTemplate" =
      some ⟨none, false, [intField "hp" "0x10"]⟩ := rfl
  have hnow : (layout "0x14" "0x0" "0x4" "0x10").templates.get? "UnitTemplate" =
      some ⟨none, false, [intField "hp" "0x14"]⟩ := rfl
  have hmoves : MovesKnown oldLayout (layout "0x14" "0x0" "0x4" "0x10") :=
    .template hwas hnow hhp
  have hold := loadSchema_old oldLayout (layout "0x14" "0x0" "0x4" "0x10")
  have hnew := loadSchema_new oldLayout (layout "0x14" "0x0" "0x4" "0x10")
  refine ⟨hmoves, fileTree oldLayout (layout "0x14" "0x0" "0x4" "0x10"), ?_⟩
  exact (moved_field_fails hmoves).2 _ _ false _ (congrArg Prod.fst hold) (congrArg Prod.fst hnew)

-- Fields of a struct may trade places unseen, and those of embedded classes may move anywhere.
theorem swapped_fields_unseen :
    (∃ was now, oldLayout.structs.get? "Stats" = some was ∧
      (layout "0x10" "0x4" "0x0" "0x14").structs.get? "Stats" = some now ∧
      MovesField was.fields now.fields) ∧
    (∃ was now, oldLayout.embedded.get? "Loot" = some was ∧
      (layout "0x10" "0x4" "0x0" "0x14").embedded.get? "Loot" = some now ∧
      MovesField was.fields now.fields) ∧
    ¬∃ change ∈ (Diff.between oldLayout (layout "0x10" "0x4" "0x0" "0x14")).changes,
      change.severity = .crit := by
  have hzero : Offset.parse? "0x0" = some 0 := by decide +kernel
  have hfour : Offset.parse? "0x4" = some 4 := by decide +kernel
  have hx : Offset.parse? "0x10" = some 0x10 := by decide +kernel
  have hy : Offset.parse? "0x14" = some 0x14 := by decide +kernel
  have hspeed : MovesField [intField "speed" "0x0", intField "armor" "0x4"]
      [intField "speed" "0x4", intField "armor" "0x0"] :=
    .intro "speed" rfl rfl hzero hfour (by decide)
  have hcount : MovesField [intField "count" "0x10"] [intField "count" "0x14"] :=
    .intro "count" rfl rfl hx hy (by decide)
  exact ⟨⟨_, _, rfl, rfl, hspeed⟩, ⟨_, _, rfl, rfl, hcount⟩, by decide +kernel⟩

end TypeAtlas.Command
