import TypeAtlas.Diff.Compare

namespace TypeAtlas

namespace Diff

open Json (Value)

def sectionValue (changes : List Change) : Value :=
  Severity.scale.values (changes.map Change.record)

def value (diff : Diff) : Value :=
  .obj [("old_hash", .str diff.oldHash), ("new_hash", .str diff.newHash),
    ("enums", sectionValue diff.enums), ("structs", sectionValue diff.structs),
    ("templates", sectionValue diff.templates)]

def sectionText (title : String) (changes : List Change) : String :=
  "\n--- " ++ title ++ " ---\n" ++
    if changes.isEmpty then "     No changes\n"
    else Severity.scale.lines (changes.map Change.record)

def warningText : String :=
  "\n*** CRITICAL CHANGES DETECTED ***\n" ++
    "Extraction code MUST be regenerated before running against new build.\n"

-- The report on two schemas that stand at the given paths.
def text (diff : Diff) (oldPath newPath : String) : String :=
  "=== Schema Diff Report ===\n" ++
    "Old: " ++ oldPath ++ " (hash: " ++ Schema.shortHash diff.oldHash ++ "...)\n" ++
    "New: " ++ newPath ++ " (hash: " ++ Schema.shortHash diff.newHash ++ "...)\n" ++
    String.join (diff.sections.map fun (title, changes) => sectionText title changes) ++
    "\n=== SUMMARY: " ++ toString diff.changeCount ++ " changes, " ++
    toString diff.criticalCount ++ " critical ===\n" ++
    if diff.hasCritical then warningText else ""

end Diff

end TypeAtlas
