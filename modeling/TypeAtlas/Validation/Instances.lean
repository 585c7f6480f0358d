import TypeAtlas.Json.Printer

namespace TypeAtlas.Validation

open Json (Value)

inductive InstanceFile
  | instances (items : List Value)
  | notAList
  | unreadable
  deriving Inhabited

namespace InstanceFile

def parse (text : String) : InstanceFile :=
  match Value.read? text with
  | some (.arr items) => instances items
  | some _ => notAList
  | none => unreadable

def items? : InstanceFile → Option (List Value)
  | instances items => some items
  | _ => none

end InstanceFile

-- The files that exist, by their templates.
abbrev Files := NameMap InstanceFile

-- The name of an instance, if it has one that is not empty.
def nameOf? (item : Value) : Option String :=
  match item.get? "name" with
  | some (.str name) => if name.isEmpty then none else some name
  | _ => none

-- What an instance is called in a message.
def labelOf (item : Value) : String :=
  match item.get? "name" with
  | some (.str name) => name
  | some value => value.compact
  | none => "?"

-- The instance whose keys stand for all: the first with a name, else the first.
def representative? (items : List Value) : Option (List (String × Value)) :=
  ((items.find? fun item => (nameOf? item).isSome).orElse fun _ => items.head?).bind Value.members?

end TypeAtlas.Validation
