import TypeAtlas.NameMap
import TypeAtlas.Json.Node

namespace TypeAtlas.Json

-- The members of an object that is read stand in the order of their names, and of several with one
-- name the last counts.
inductive Value
  | null
  | bool (value : Bool)
  | whole (n : Int)
  | float (x : Float)
  | str (text : String)
  | arr (items : List Value)
  | obj (members : List (String × Value))
  deriving Inhabited

namespace Value

def names (texts : List String) : Value :=
  .arr (texts.map .str)

-- Absent texts are written as null.
def text? : Option String → Value
  | some text => .str text
  | none => .null

-- The members of a value that is an object.
def members? : Value → Option (List (String × Value))
  | .obj members => some members
  | _ => none

-- The value of a member, if this is an object that has it.
def get? (value : Value) (name : String) : Option Value :=
  match value with
  | .obj members => (members.find? fun member => member.1 == name).map Prod.snd
  | _ => none

end Value

-- How deeply lists and objects may stand in each other.
def nestingLimit : Nat := 127

mutual

-- The value of a tree, read strictly, if it has no fault and is no deeper than the limit.
def Node.value? (limit : Nat) : Node → Option Value
  | .null => some .null
  | .bool b => some (.bool b)
  | .num n =>
    match n.value? with
    | some (.whole n) => some (.whole n)
    | some (.float x) => some (.float x)
    | none => none
  | .str text => text.map .str
  | .arr items ending =>
    match limit, ending with
    | inner + 1, .closed => (Node.values? inner items).map .arr
    | _, _ => none
  | .obj members ending =>
    match limit, ending with
    | inner + 1, .closed =>
      (Node.memberValues? inner members).map fun members => .obj (NameMap.ofList members).entries
    | _, _ => none
  | .broken _ _ => none

def Node.values? (limit : Nat) : List Node → Option (List Value)
  | [] => some []
  | node :: rest =>
    match Node.value? limit node with
    | some value => (Node.values? limit rest).map (value :: ·)
    | none => none

def Node.memberValues? (limit : Nat) :
    List (Option String × Node) → Option (List (String × Value))
  | [] => some []
  | (some name, node) :: rest =>
    match Node.value? limit node with
    | some value => (Node.memberValues? limit rest).map ((name, value) :: ·)
    | none => none
  | (none, _) :: _ => none

end

-- The value that a whole text stands for.
def Value.read? (text : String) : Option Value :=
  let document := Document.read text.toList
  if document.clean then document.root.value? nestingLimit else none

end TypeAtlas.Json
