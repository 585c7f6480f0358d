import TypeAtlas.Json.Record
import TypeAtlas.Json.Value

namespace TypeAtlas

structure Record (γ : Type) where
  grade : γ
  message : String
  deriving DecidableEq, Repr

-- How the grades of a report are written: the key they stand under, the name of each, and the five
-- columns that mark it in a text.
structure Scale (γ : Type) where
  key : String
  grades : List γ
  label : γ → String
  mark : γ → String

namespace Scale

variable {γ : Type}

def named? (scale : Scale γ) (label : String) : Option γ :=
  scale.grades.find? fun grade => scale.label grade == label

open Json (Reader Value)

def value (scale : Scale γ) (record : Record γ) : Value :=
  .obj [(scale.key, .str (scale.label record.grade)), ("message", .str record.message)]

def values (scale : Scale γ) (records : List (Record γ)) : Value :=
  .arr (records.map scale.value)

-- Reads a record, given one to start from.
def read (scale : Scale γ) (start : Record γ) : Reader (Record γ) :=
  Json.Field.record
    [⟨scale.key, [], .required, fun node record =>
        (Reader.variant scale.named? node).map fun grade => { record with grade }⟩,
     ⟨"message", [], .required, fun node record =>
        (Reader.str node).map fun message => { record with message }⟩]
    start

-- A record as a line of a text.
def line (scale : Scale γ) (record : Record γ) : String :=
  scale.mark record.grade ++ " " ++ record.message ++ "\n"

def lines (scale : Scale γ) (records : List (Record γ)) : String :=
  String.join (records.map scale.line)

end Scale

end TypeAtlas
