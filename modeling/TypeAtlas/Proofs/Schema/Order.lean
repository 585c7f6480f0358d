import TypeAtlas.Proofs.Dump.Block
import TypeAtlas.Proofs.Schema.Congruence

namespace TypeAtlas.Schema

open Dump

variable {rules : Rules} {first second : List Char}

-- Dumps that declare the same have the same schema but for the hash.
theorem ofDump_congr
    (h : ∀ kind name, (Index.scan first).get? kind name = (Index.scan second).get? kind name) :
    ofDump rules second = { ofDump rules first with hash := (ofDump rules second).hash } :=
  ofDump_of_agree (.of_get?_eq h)

-- The order of self-contained declarations matters to nothing but the hash.
theorem ofDump_perm (rules : Rules) {blocks others : List Block}
    (hkeys : (blocks.map Block.key).Nodup) (hperm : blocks.Perm others) :
    ofDump rules (others.flatMap Block.text) =
      { ofDump rules (blocks.flatMap Block.text) with
        hash := (ofDump rules (others.flatMap Block.text)).hash } :=
  ofDump_congr (Block.get?_scan_perm hkeys hperm)

def unitBlock : Block where
  text := "class UnitTemplate ".toList ++ braced "\nint hp; // 0x10\n".toList ++ ['\n']
  header := ⟨.classType, "UnitTemplate", false, false, none⟩
  afterHeader := braced "\nint hp; // 0x10\n".toList ++ ['\n']
  afterOpening := "\nint hp; // 0x10\n".toList ++ ['}', '\n']
  body := "\nint hp; // 0x10\n".toList
  afterClosing := ['\n']
  reads := by dsimp only [String.reduceToList]; decide +kernel
  alone := by dsimp only [String.reduceToList]; decide +kernel
  opens := by dsimp only [String.reduceToList]; decide +kernel
  closes := by dsimp only [String.reduceToList]; decide +kernel
  blank := List.forall_mem_singleton.mpr (by decide)
  ends := by dsimp only [String.reduceToList]; decide

def squadBlock : Block where
  text := "class SquadTemplate : UnitTemplate ".toList ++ braced ['\n'] ++ ['\n']
  header := ⟨.classType, "SquadTemplate", false, false, some "UnitTemplate"⟩
  afterHeader := ' ' :: braced ['\n'] ++ ['\n']
  afterOpening := ['\n', '}', '\n']
  body := ['\n']
  afterClosing := ['\n']
  reads := by dsimp only [String.reduceToList]; decide +kernel
  alone := by dsimp only [String.reduceToList]; decide +kernel
  opens := by decide +kernel
  closes := by decide +kernel
  blank := List.forall_mem_singleton.mpr (by decide)
  ends := by dsimp only [String.reduceToList]; decide

-- A template may stand before its base.
theorem squad_before_unit :
    ([unitBlock, squadBlock].map Block.key).Nodup ∧
      [unitBlock, squadBlock].Perm [squadBlock, unitBlock] ∧
      ofDump .standard ([squadBlock, unitBlock].flatMap Block.text) =
        { ofDump .standard ([unitBlock, squadBlock].flatMap Block.text) with
          hash := (ofDump .standard ([squadBlock, unitBlock].flatMap Block.text)).hash } := by
  have hkeys : ([unitBlock, squadBlock].map Block.key).Nodup := by decide
  have hperm : [unitBlock, squadBlock].Perm [squadBlock, unitBlock] := List.Perm.swap _ _ []
  exact ⟨hkeys, hperm, ofDump_perm .standard hkeys hperm⟩

end TypeAtlas.Schema
