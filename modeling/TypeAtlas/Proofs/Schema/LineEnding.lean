import TypeAtlas.Proofs.Dump.LineEnding
import TypeAtlas.Proofs.Schema.Lines

namespace TypeAtlas.Schema

open Dump Text

theorem alike_crlf (rules : Rules) (d : Declaration) :
    Alike rules d { d with body := crlf d.body } where
  kind := rfl
  name := rfl
  isAbstract := rfl
  base := rfl
  fields _ := (fields_crlf rules d.kind d.body).symm
  enum _ := by
    rw [Enum.read?, Enum.read?, Enum.ofBody?, Enum.ofBody?, enumMembers_crlf, storage?_crlf]

-- The endings of its lines change nothing about the schema of a dump but the hash, as long as no
-- line ends in a backslash: in a literal that one would continue the line, but not before a
-- carriage return.
theorem ofDump_crlf (rules : Rules) {text : List Char} (h : ¬['\\', '\n'] <:+: text) :
    ofDump rules (crlf text) =
      { ofDump rules text with hash := (ofDump rules (crlf text)).hash } := by
  have hsame : ∀ line ∈ lineStarts text, SameLine rules text line (crlf line) := by
    intro line hline
    have hclean : ¬['\\', '\n'] <:+: line :=
      fun hpart => h (hpart.trans (suffix_of_mem_lineStarts hline).isInfix)
    rw [SameLine, declares?_crlf hclean]
    cases declares? line with
    | none => exact .none
    | some d => exact .some ⟨rfl, rfl, fun _ => alike_crlf rules d⟩
  have hlines : List.Forall₂ (SameLine rules text) (lineStarts text)
      ((lineStarts text).map crlf) :=
    List.forall₂_map_right_iff.mpr (List.forall₂_same.mpr hsame)
  refine ofDump_of_agree (agree_of_lines hlines ?_)
  rw [lineStarts_crlf]

def rankDump : List Char :=
  "enum Rank // ".toList ++ ['{', '\n'] ++ braced "\nconst Rank Low =\n1;\n".toList ++
    "\nclass UnitTemplate : Base\n".toList ++ braced "\npublic Rank rank; // 0x10\n".toList ++ ['\n']

-- A constant over two lines, and a comment between a header and its brace.
theorem rankDump_crlf :
    ¬['\\', '\n'] <:+: rankDump ∧
      ofDump .standard (crlf rankDump) =
        { ofDump .standard rankDump with hash := (ofDump .standard (crlf rankDump)).hash } := by
  have hclean : ¬['\\', '\n'] <:+: rankDump := by
    dsimp only [rankDump, String.reduceToList]
    decide +kernel
  exact ⟨hclean, ofDump_crlf .standard hclean⟩

end TypeAtlas.Schema
