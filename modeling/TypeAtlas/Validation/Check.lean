import TypeAtlas.Record
import TypeAtlas.Schema.Basic
import TypeAtlas.Text.Search
import TypeAtlas.Validation.Defect

namespace TypeAtlas.Validation

open Json (Value)
open Schema (Field Template)

inductive Level
  | pass
  | warn
  | fail
  | info
  deriving DecidableEq, Repr

namespace Level

def label : Level → String
  | pass => "PASS"
  | warn => "WARN"
  | fail => "FAIL"
  | info => "INFO"

def mark : Level → String
  | pass => "PASS "
  | warn => "WARN "
  | fail => "FAIL "
  | info => "     "

def scale : Scale Level :=
  ⟨"level", [pass, warn, fail, info], label, mark⟩

end Level

-- A value that a primitive field cannot have, with its place.
structure Defect where
  template : String
  field : String
  item : String
  problem : Problem

def Defect.message (defect : Defect) : String :=
  defect.template ++ "." ++ defect.field ++ "[" ++ defect.item ++ "]: " ++ defect.problem.message

inductive Check
  -- How many of the templates that can have instances have a file.
  | coverage (level : Level) (found expected abstract : Nat)
  | missing (name : String)
  | unreadable (template : String)
  | notAList (template : String)
  | empty (template : String)
  | named (level : Level) (template : String) (named total : Nat)
  -- How many of the simple fields an instance has, and how many fields are not simple.
  | present (level : Level) (template : String) (present expected complex : Nat)
  | clean (template : String)
  | defects (template : String) (count : Nat)
  | defect (defect : Defect)
  | more (count : Nat)

-- A share of a whole. Of nothing, all is there.
def share (part whole : Nat) : Float :=
  if whole = 0 then 1.0 else part.toFloat / whole.toFloat

namespace Check

def level : Check → Level
  | coverage level .. | named level .. | present level .. => level
  | unreadable _ | defects .. => .fail
  | notAList _ | empty _ => .warn
  | clean _ => .pass
  | missing _ | defect _ | more _ => .info

def message : Check → String
  | coverage _ found expected abstract =>
    toString found ++ "/" ++ toString expected ++ " types have output (" ++ toString abstract ++
      " abstract, expected no output)"
  | missing name => "  Missing: " ++ name
  | unreadable template => template ++ ": Could not read JSON"
  | notAList template => template ++ ": Not a list"
  | empty template => template ++ ": Empty file"
  | named _ template count total =>
    template ++ ": " ++ toString count ++ "/" ++ toString total ++ " named (" ++
      Decimal.wholeForm (share count total * 100.0) ++ "%)"
  | present _ template count expected complex =>
    template ++ ": " ++ toString count ++ "/" ++ toString expected ++ " fields" ++
      if complex = 0 then "" else " (" ++ toString complex ++ " complex skipped)"
  | clean template => template ++ ": all values match expected types"
  | defects template count => template ++ ": " ++ toString count ++ " type errors"
  | defect d => "  " ++ d.message
  | more count => "  ... and " ++ toString count ++ " more"

def record (check : Check) : Record Level :=
  ⟨check.level, check.message⟩

end Check

-- Each template that can have instances has a file.
def checkCoverage (schema : Schema) (files : Files) (thresholds : Thresholds) : List Check :=
  let expected := schema.concrete.names
  let missing := expected.filter fun name => !files.contains name
  let found := expected.length - missing.length
  let level : Level :=
    if missing.isEmpty then .pass
    else if share found expected.length ≥ thresholds.coverageWarnRatio then .warn
    else .fail
  .coverage level found expected.length (schema.templates.size - expected.length) ::
    missing.map .missing

-- Whether an instance has a name of its own.
def isNamed (thresholds : Thresholds) (item : Value) : Bool :=
  match nameOf? item with
  | some name => !Text.startsWith name thresholds.placeholderNameStart
  | none => false

def checkName (thresholds : Thresholds) (template : String) : InstanceFile → Check
  | .unreadable => .unreadable template
  | .notAList => .notAList template
  | .instances [] => .empty template
  | .instances items =>
    let total := items.length
    let count := items.countP (isNamed thresholds)
    let level : Level :=
      if count = total then .pass
      else if share count total ≥ thresholds.namingWarnRatio then .warn
      else .fail
    .named level template count total

-- Instances have names of their own.
def checkNames (files : Files) (thresholds : Thresholds) : List Check :=
  files.entries.map fun (template, file) => checkName thresholds template file

-- The names of the fields that are plain keys of instances.
def simpleNames (template : Template) : List String :=
  (NameSet.ofNames ((template.fields.filter fun f => f.category.isSimple).map Field.name)).names

-- The keys of an instance that may be fields.
def fieldKeys (thresholds : Thresholds) (item : List (String × Value)) : List String :=
  (item.map Prod.fst).filter fun key => !thresholds.ignoredInstanceKeys.contains key

def checkPresence (thresholds : Thresholds) (name : String) (template : Template)
    (item : List (String × Value)) : List Check :=
  let expected := simpleNames template
  let complex := template.fields.countP fun f => !f.category.isSimple
  let keys := fieldKeys thresholds item
  let missing := expected.filter fun field => !keys.contains field
  let count := expected.length - missing.length
  let ratio := share count expected.length
  let level : Level :=
    if ratio ≥ thresholds.fieldPassRatio then .pass
    else if ratio ≥ thresholds.fieldWarnRatio then .warn
    else .fail
  if expected.isEmpty then []
  else
    .present level name count expected.length complex ::
      if level = .pass then [] else (missing.take thresholds.maxDetailLines).map .missing

-- One instance of each file has the simple fields of its template.
def checkFields (schema : Schema) (files : Files) (thresholds : Thresholds) : List Check :=
  files.entries.flatMap fun (name, file) =>
    match schema.templates.get? name, file.items?.bind representative? with
    | some template, some item => checkPresence thresholds name template item
    | _, _ => []

-- The primitive fields of a template by their names, the last of each name.
def primitiveFields (template : Template) : NameMap Field :=
  .ofList ((template.fields.filter fun f => f.category = .primitive).map fun f => (f.name, f))

-- The defects of one instance, in the order of field names.
def itemDefects (thresholds : Thresholds) (template : String) (fields : NameMap Field)
    (item : Value) : List Defect :=
  fields.entries.filterMap fun (name, field) =>
    (item.get? name).bind fun value =>
      (problem? thresholds field.declaredType value).map fun problem =>
        ⟨template, name, labelOf item, problem⟩

-- The defects of the first instances.
def fileDefects (thresholds : Thresholds) (name : String) (template : Template)
    (items : List Value) : List Defect :=
  let fields := primitiveFields template
  (items.take thresholds.typeCheckSample).flatMap (itemDefects thresholds name fields)

-- Whether one of the first instances has more than one key.
def hasData (items : List Value) : Bool :=
  (items.take 5).any fun item =>
    match item.members? with
    | some members => 1 < members.length
    | none => false

def checkItems (thresholds : Thresholds) (name : String) (template : Template)
    (items : List Value) : List Check :=
  let found := fileDefects thresholds name template items
  let shown := thresholds.maxDetailLines
  if found.isEmpty then if hasData items then [.clean name] else []
  else
    .defects name found.length :: (found.take shown).map .defect ++
      if shown < found.length then [.more (found.length - shown)] else []

-- Values of primitive fields have the shape of their types.
def checkTypes (schema : Schema) (files : Files) (thresholds : Thresholds) : List Check :=
  files.entries.flatMap fun (name, file) =>
    match schema.templates.get? name, file.items? with
    | some template, some items => checkItems thresholds name template items
    | _, _ => []

end TypeAtlas.Validation
