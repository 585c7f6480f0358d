import TypeAtlas.Schema.Json

namespace TypeAtlas.Schema

def summaryText (schema : Schema) : String :=
  let s := schema.summary
  "  Version:          " ++ schema.version ++ "\n" ++
    "  Dump hash:        " ++ shortHash schema.hash ++ "...\n" ++
    "  Enums:            " ++ toString s.enums ++ "\n" ++
    "  Structs:          " ++ toString s.structs ++ "\n" ++
    "  Embedded classes: " ++ toString s.embedded ++ "\n" ++
    "  Templates:        " ++ toString s.templates ++ " (" ++ toString s.concrete ++
      " concrete, " ++ toString s.abstract ++ " abstract)\n" ++
    "  Template fields:  " ++ toString s.templateFields ++ "\n" ++
    "  Inheritance:      " ++ toString s.chains ++ " chains\n"

def summaryValue (schema : Schema) : Json.Value :=
  .obj ([("version", .str schema.version), ("dump_hash", .str schema.hash)] ++
    schema.summary.members)

end TypeAtlas.Schema
