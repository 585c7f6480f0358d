import TypeAtlas.Proofs.Command.Loading
import TypeAtlas.Proofs.Diff.Critical

namespace TypeAtlas.Command

open Schema (Field)

-- A comparison of two files that hold schemas ends, with the code that tells of critical changes.
theorem diffSchemas_run {oldPath newPath : String} {tree : FileTree} {old new : Schema} (json : Bool)
    (hold : ((loadSchema oldPath : Action (StateM FileTree) Schema).run.run tree).1 = .ok old)
    (hnew : ((loadSchema newPath : Action (StateM FileTree) Schema).run.run tree).1 = .ok new) :
    ∃ output,
      (diffSchemas oldPath newPath json : Action (StateM FileTree) Outcome).run.run tree =
        (.ok ⟨if (Diff.between old new).hasCritical then 2 else 0, output, ""⟩, tree) := by
  have holdRun := (loadSchema_onlyReads oldPath).run_eq hold
  have hnewRun := (loadSchema_onlyReads newPath).run_eq hnew
  rw [diffSchemas, run_bind_of_ok holdRun, run_bind_of_ok hnewRun]
  exact ⟨_, rfl⟩

-- The verdict on two schemas, and the code that a comparison of their files exits with.
theorem diff_verdict (old new : Schema) :
    ((Diff.between old new).hasCritical = true ↔ Diff.Breaks old new) ∧
      ∀ (oldPath newPath : String) (json : Bool) (tree : FileTree),
        ((loadSchema oldPath : Action (StateM FileTree) Schema).run.run tree).1 = .ok old →
        ((loadSchema newPath : Action (StateM FileTree) Schema).run.run tree).1 = .ok new →
        ∃ outcome : Outcome,
          (diffSchemas oldPath newPath json : Action (StateM FileTree) Outcome).run.run tree =
            (.ok outcome, tree) ∧
          (outcome.code = 2 ∧ Diff.Breaks old new ∨ outcome.code = 0 ∧ ¬Diff.Breaks old new) := by
  refine ⟨Diff.hasCritical_between_iff, ?_⟩
  intro oldPath newPath json tree hold hnew
  obtain ⟨output, hrun⟩ := diffSchemas_run json hold hnew
  refine ⟨_, hrun, ?_⟩
  by_cases h : Diff.Breaks old new
  · have hcritical := Diff.hasCritical_between_iff.mpr h
    exact Or.inl ⟨if_pos hcritical, h⟩
  · have hquiet : ¬(Diff.between old new).hasCritical = true :=
      fun hcritical => h (Diff.hasCritical_between_iff.mp hcritical)
    exact Or.inr ⟨if_neg hquiet, h⟩

-- Two schema files beside each other.
def fileTree (old new : Schema) : FileTree :=
  ⟨[(["old.json"], .file (Text.encode old.fileText.toList)),
    (["new.json"], .file (Text.encode new.fileText.toList))]⟩

theorem loadSchema_old (old new : Schema) :
    (loadSchema "old.json" : Action (StateM FileTree) Schema).run.run (fileTree old new) =
      (.ok old, fileTree old new) :=
  loadSchema_of_read rfl rfl

theorem loadSchema_new (old new : Schema) :
    (loadSchema "new.json" : Action (StateM FileTree) Schema).run.run (fileTree old new) =
      (.ok new, fileTree old new) :=
  loadSchema_of_read rfl rfl

def intField (name offset : String) : Field :=
  ⟨name, "int", offset, .primitive, none⟩

-- A release with an enum, a struct and a template, by the highest rank and the fields of units.
def release (high : Int64) (unitFields : List Field) : Schema :=
  { Schema.empty with
    enums := .ofList [("Rank", ⟨"int", .ofList [("Low", 0), ("High", high)]⟩)]
    structs := .ofList [("Stats", ⟨8, [intField "speed" "0x0", intField "armor" "0x4"]⟩)]
    templates := .ofList [("UnitTemplate", ⟨none, false, unitFields⟩)] }

def firstRelease : Schema :=
  release 1 [intField "hp" "0x10", intField "mp" "0x14"]

-- A rank is renumbered and a field moved.
def movedRelease : Schema :=
  release 2 [intField "hp" "0x18", intField "mp" "0x14"]

-- A field is retyped where it stands, one is removed and one is new.
def retypedRelease : Schema :=
  release 1 [⟨"hp", "long", "10", .primitive, none⟩, intField "xp" "0x18"]

theorem diff_verdict_releases :
    (Diff.Breaks firstRelease movedRelease ∧ ∀ json, ∃ outcome : Outcome,
      (diffSchemas "old.json" "new.json" json : Action (StateM FileTree) Outcome).run.run
          (fileTree firstRelease movedRelease) =
        (.ok outcome, fileTree firstRelease movedRelease) ∧ outcome.code = 2) ∧
    ¬Diff.Breaks firstRelease retypedRelease ∧ ∀ json, ∃ outcome : Outcome,
      (diffSchemas "old.json" "new.json" json : Action (StateM FileTree) Outcome).run.run
          (fileTree firstRelease retypedRelease) =
        (.ok outcome, fileTree firstRelease retypedRelease) ∧ outcome.code = 0 := by
  obtain ⟨hmoved, hmovedRun⟩ := diff_verdict firstRelease movedRelease
  obtain ⟨hretyped, hretypedRun⟩ := diff_verdict firstRelease retypedRelease
  have hbreaks : Diff.Breaks firstRelease movedRelease := hmoved.mp (by decide +kernel)
  have hfits : ¬Diff.Breaks firstRelease retypedRelease := hretyped.not.mp (by decide +kernel)
  refine ⟨⟨hbreaks, fun json => ?_⟩, hfits, fun json => ?_⟩
  · obtain ⟨outcome, hrun, ⟨htwo, -⟩ | ⟨-, hnone⟩⟩ := hmovedRun _ _ json _
      (congrArg Prod.fst (loadSchema_old _ _)) (congrArg Prod.fst (loadSchema_new _ _))
    · exact ⟨outcome, hrun, htwo⟩
    · exact absurd hbreaks hnone
  · obtain ⟨outcome, hrun, ⟨-, hbroken⟩ | ⟨hzero, -⟩⟩ := hretypedRun _ _ json _
      (congrArg Prod.fst (loadSchema_old _ _)) (congrArg Prod.fst (loadSchema_new _ _))
    · exact absurd hbroken hfits
    · exact ⟨outcome, hrun, hzero⟩

end TypeAtlas.Command
