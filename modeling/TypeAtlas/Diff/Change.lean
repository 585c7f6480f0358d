import TypeAtlas.Record
import TypeAtlas.Schema.Basic

namespace TypeAtlas.Diff

open Schema (Field)

inductive Severity
  | add
  | del
  | chg
  | crit
  | warn
  | info
  deriving DecidableEq, Repr

namespace Severity

def label : Severity → String
  | add => "ADD"
  | del => "DEL"
  | chg => "CHG"
  | crit => "CRIT"
  | warn => "WARN"
  | info => "INFO"

-- Details have no mark of their own.
def mark : Severity → String
  | add => " ADD "
  | del => " DEL "
  | chg => " CHG "
  | crit => "CRIT "
  | warn => "WARN "
  | info => "     "

def scale : Scale Severity :=
  ⟨"severity", [add, del, chg, crit, warn, info], label, mark⟩

end Severity

-- What is compared by name.
inductive Grain
  | enums
  | structs
  | templates
  deriving DecidableEq, Repr

def Grain.label : Grain → String
  | enums => "enums"
  | structs => "structs"
  | templates => "templates"

inductive Change
  -- So many new or removed things of a grain, and each of them.
  | added (grain : Grain) (count : Nat)
  | removed (grain : Grain) (count : Nat)
  | newEnum (name : String) (values : Nat)
  | newStruct (name : String)
  | newTemplate (name : String) (fields : Nat)
  | gone (name : String)
  -- An enum stores its values in another type.
  | storage (name was now : String)
  -- An enum has new, removed and renumbered values, and each of them.
  | values (name : String) (fresh lost altered : Nat)
  | newValue (name : String) (value : Int64)
  | goneValue (name : String) (value : Int64)
  | renumbered (name : String) (was now : Int64)
  | size (name : String) (was now : UInt64)
  -- So many fields moved, in all templates.
  | offsets (count : Nat)
  -- A template has changes, and each of them.
  | template (name : String)
  | newField (name : String) (field : Field)
  | goneField (name : String) (field : Field)
  | moved (name : String) (was now : Field)
  | retyped (name : String) (was now : Field)
  deriving DecidableEq, Repr

namespace Change

-- Whatever makes old data read wrongly is critical.
def severity : Change → Severity
  | added .. => .add
  | removed .. => .del
  | newEnum .. | newStruct .. | newTemplate .. | gone .. => .info
  | newValue .. | goneValue .. | newField .. | goneField .. => .info
  | values .. | template .. => .chg
  | storage .. | renumbered .. | size .. | offsets .. | moved .. => .crit
  | retyped .. => .warn

def arrow (was now : String) : String :=
  was ++ " -> " ++ now

-- The type of a field that has changed besides its place.
def retypedText (was now : Field) : String :=
  if was.declaredType = now.declaredType then ""
  else " (type " ++ arrow was.declaredType now.declaredType ++ ")"

def placeText (name : String) (field : Field) : String :=
  name ++ ": " ++ field.declaredType ++ " @ " ++ field.offset

def message : Change → String
  | added grain count => toString count ++ " new " ++ grain.label
  | removed grain count => toString count ++ " removed " ++ grain.label
  | newEnum name count => "  + " ++ name ++ " (" ++ toString count ++ " values)"
  | newStruct name => "  + " ++ name
  | newTemplate name count => "  + " ++ name ++ " (" ++ toString count ++ " fields)"
  | gone name => "  - " ++ name
  | storage name was now => name ++ ": storage type " ++ arrow was now
  | values name fresh lost altered =>
    name ++ ": +" ++ toString fresh ++ " -" ++ toString lost ++ " ~" ++ toString altered ++
      " values"
  | newValue name value => "  + " ++ name ++ " = " ++ toString value
  | goneValue name value => "  - " ++ name ++ " = " ++ toString value
  | renumbered name was now => "  ~ " ++ name ++ ": " ++ arrow (toString was) (toString now)
  | size name was now => name ++ ": size changed " ++ arrow (toString was) (toString now)
  | offsets count =>
    "*** " ++ toString count ++ " OFFSET CHANGES - extraction code must be regenerated ***"
  | template name => name ++ ":"
  | newField name field => "  + " ++ placeText name field
  | goneField name field => "  - " ++ placeText name field
  | moved name was now =>
    "  OFFSET " ++ name ++ ": " ++ arrow was.offset now.offset ++ retypedText was now
  | retyped name was now => "  TYPE " ++ name ++ ": " ++ arrow was.declaredType now.declaredType

def record (change : Change) : Record Severity :=
  ⟨change.severity, change.message⟩

end Change

end TypeAtlas.Diff
