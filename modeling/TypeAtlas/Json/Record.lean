import TypeAtlas.NameMap
import TypeAtlas.Json.Node

namespace TypeAtlas.Json

inductive Problem
  -- The text is no JSON.
  | text (cause : Cause)
  | missingField (name : String)
  | duplicateField (name : String)
  | unknownVariant (name : String)
  | invalidType
  | invalidValue
  | invalidLength (length : Nat)
  deriving DecidableEq, Repr

-- Whether the text ends early, is no JSON, or is JSON of the wrong shape.
def Problem.category : Problem → String
  | text .ended => "eof"
  | text .malformed => "syntax"
  | _ => "data"

-- What is wrong with the shape.
def Problem.message? : Problem → Option String
  | text _ => none
  | missingField name => some ("missing field \x60" ++ name ++ "\x60")
  | duplicateField name => some ("duplicate field \x60" ++ name ++ "\x60")
  | unknownVariant name => some ("unknown variant \x60" ++ name ++ "\x60")
  | invalidType => some "invalid type"
  | invalidValue => some "invalid value"
  | invalidLength length => some ("invalid length " ++ toString length)

-- A tree is read front to back, and the first problem met is the answer.
abbrev Reader (α : Type) := Node → Except Problem α

namespace Node

-- The problem of a value that has to be of another type. Of a scalar, the whole token is read first.
def mismatch : Node → Problem
  | .num n => if n.value?.isSome then .invalidType else .text .malformed
  | .str none => .text .malformed
  | .broken fault _ => .text fault.read
  | _ => .invalidType

-- Passes over a value that nobody asks for.
def skip : Node → Except Problem Unit
  | .arr _ (.cut _ fault) => .error (.text fault.skipped)
  | .obj _ (.cut _ fault) => .error (.text fault.skipped)
  | .broken fault _ => .error (.text fault.skipped)
  | _ => .ok ()

end Node

namespace Reader

def str : Reader String
  | .str (some text) => .ok text
  | node => .error node.mismatch

def bool : Reader Bool
  | .bool b => .ok b
  | node => .error node.mismatch

-- A whole number between two bounds.
def whole (low high : Int) : Reader Int
  | .num n =>
    match n.value? with
    | some (.whole n) => if low ≤ n && n ≤ high then .ok n else .error .invalidValue
    | some (.float _) => .error .invalidType
    | none => .error (.text .malformed)
  | node => .error node.mismatch

def int64 : Reader Int64 := fun node =>
  (whole Int64.minValue.toInt Int64.maxValue.toInt node).map Int64.ofInt

def uint64 : Reader UInt64 := fun node =>
  (whole 0 (UInt64.size - 1) node).map fun n => UInt64.ofNat n.toNat

def count : Reader Nat := fun node =>
  (whole 0 (UInt64.size - 1) node).map Int.toNat

-- The floating-point number nearest to a whole number of 64 bits.
def floatOfWhole (n : Int) : Float :=
  if n < 0 then -(UInt64.ofNat n.natAbs).toFloat else (UInt64.ofNat n.natAbs).toFloat

def float : Reader Float
  | .num n =>
    match n.value? with
    | some (.whole n) => .ok (floatOfWhole n)
    | some (.float x) => .ok x
    | none => .error (.text .malformed)
  | node => .error node.mismatch

def optional {α : Type} (read : Reader α) : Reader (Option α)
  | .null => .ok none
  | node => (read node).map some

end Reader

def Ending.finish : Ending → Except Problem Unit
  | closed => .ok ()
  | cut _ fault => .error (.text fault.read)

-- The key of a member, which is read strictly.
def keyText : Option String → Except Problem String
  | some name => .ok name
  | none => .error (.text .malformed)

def Reader.list {α : Type} (read : Reader α) : Reader (List α)
  | .arr items ending => do
    let values ← items.mapM read
    ending.finish
    return values
  | node => .error node.mismatch

def readMember {α : Type} (read : Reader α) (member : Option String × Node) :
    Except Problem (String × α) := do
  let name ← keyText member.1
  let value ← read member.2
  return (name, value)

-- An object with any names. The last of several members with one name counts.
def Reader.map {α : Type} (read : Reader α) : Reader (NameMap α)
  | .obj members ending => do
    let entries ← members.mapM (readMember read)
    ending.finish
    return NameMap.ofList entries
  | node => .error node.mismatch

-- How a record asks for one of its fields.
inductive Presence
  | required
  -- Absent is a value of its own; only a list of the fields has to give one.
  | optional
  | defaulted
  deriving DecidableEq, Repr

-- A field of records held in a `σ`: its names, the first of which problems mention, and how its value
-- is read into the record.
structure Field (σ : Type) where
  name : String
  otherNames : List String
  presence : Presence
  read : Node → σ → Except Problem σ

namespace Field

variable {σ : Type}

def answers (field : Field σ) (name : String) : Bool :=
  field.name == name || field.otherNames.contains name

-- Reads a member into a record whose fields named `seen` are given already. Members that no field
-- answers to are passed over.
def readMember (fields : List (Field σ)) (state : List String × σ)
    (member : Option String × Node) : Except Problem (List String × σ) := do
  let name ← keyText member.1
  match fields.find? fun field => field.answers name with
  | none =>
    member.2.skip
    return state
  | some field =>
    if state.1.contains field.name then .error (.duplicateField field.name)
    else
      let record ← field.read member.2 state.2
      return (field.name :: state.1, record)

-- The first field that has to be there and is not.
def absent? (fields : List (Field σ)) (seen : List String) : Option (Field σ) :=
  fields.find? fun field => field.presence == .required && !seen.contains field.name

-- What is left of a list once all fields have their items has to be its end.
def finishItems (items : List Node) (ending : Ending) : Except Problem Unit :=
  match items, ending with
  | [], .closed => .ok ()
  | [], .cut false fault => .error (.text fault.read)
  | _, _ => .error (.text .malformed)

-- Reads the items of a list into the fields in their order, after `length` items that are read.
def readItems (ending : Ending) (length : Nat) :
    List (Field σ) → List Node → σ → Except Problem σ
  | [], items, record => do
    finishItems items ending
    return record
  | field :: fields, item :: items, record => do
    let record ← field.read item record
    readItems ending (length + 1) fields items record
  | field :: fields, [], record =>
    match ending with
    | .cut _ fault => .error (.text fault.read)
    | .closed =>
      if field.presence == .defaulted then readItems ending length fields [] record
      else .error (.invalidLength length)

-- An object with the fields as members, or a list of the fields in their order.
def record (fields : List (Field σ)) (start : σ) : Reader σ
  | .obj members ending => do
    let (seen, record) ← members.foldlM (readMember fields) ([], start)
    ending.finish
    match absent? fields seen with
    | some field => .error (.missingField field.name)
    | none => return record
  | .arr items ending => readItems ending 0 fields items start
  | node => .error node.mismatch

end Field

-- One of some names, as a string, or as the only key of an object whose value is null.
def Reader.variant {α : Type} (named? : String → Option α) : Reader α
  | .str (some name) =>
    match named? name with
    | some variant => .ok variant
    | none => .error (.unknownVariant name)
  | .str none => .error (.text .malformed)
  | .broken fault [] => .error (.text fault.read)
  | .broken fault (c :: _) => .error (.text (if c = '\x22' then fault.read else .malformed))
  | .obj ((key, node) :: members) ending => do
    let name ← keyText key
    match named? name, node with
    | none, _ => .error (.unknownVariant name)
    | some variant, .null =>
      match members, ending with
      | [], .closed => .ok variant
      | [], .cut false fault => .error (.text fault.read)
      | _, _ => .error (.text .malformed)
    | some _, node => .error node.mismatch
  | .obj [] (.cut _ fault) => .error (.text fault.read)
  | _ => .error (.text .malformed)

-- Reads a whole text. What follows the value counts once the value is read.
def Document.decode {α : Type} (document : Document) (read : Reader α) : Except Problem α := do
  let value ← read document.root
  if document.clean then return value else .error (.text .malformed)

end TypeAtlas.Json
