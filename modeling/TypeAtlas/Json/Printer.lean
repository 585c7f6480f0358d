import TypeAtlas.Decimal.Notation
import TypeAtlas.Json.Value

namespace TypeAtlas.Json

-- One character of a string. The quote, the backslash and the controls of ASCII are escaped.
def escaped (c : Char) : List Char :=
  if c = '\x22' || c = '\\' then ['\\', c]
  else if c = '\x08' then ['\\', 'b']
  else if c = '\x0c' then ['\\', 'f']
  else if c = '\n' then ['\\', 'n']
  else if c = '\r' then ['\\', 'r']
  else if c = '\t' then ['\\', 't']
  else if c < ' ' then '\\' :: 'u' :: Text.hexPadded 4 c.toNat
  else [c]

def quoted (text : String) : List Char :=
  '\x22' :: text.toList.flatMap escaped ++ ['\x22']

def wholeText (n : Int) : List Char :=
  if n < 0 then '-' :: Decimal.digits n.natAbs else Decimal.digits n.natAbs

-- A value that is neither a list nor an object. Infinite numbers have no written form but null.
def scalarText : Value → List Char
  | .null => "null".toList
  | .bool b => (if b then "true" else "false").toList
  | .whole n => wholeText n
  | .float x => (if x.isFinite then Decimal.shortestText x else "null").toList
  | .str text => quoted text
  | .arr _ => []
  | .obj _ => []

-- Parts with a separator between each two.
def separated (separator : List Char) : List (List Char) → List Char
  | [] => []
  | part :: parts => part ++ parts.flatMap fun part => separator ++ part

-- What stands between the brackets of a list or object, and in front of its parts.
structure Layout where
  -- The text in front of a part, and in front of the closing bracket, of a list on a level.
  breakAt : Nat → List Char
  colon : List Char

def Layout.compact : Layout :=
  ⟨fun _ => [], [':']⟩

def Layout.indented : Layout :=
  ⟨fun level => '\n' :: List.replicate (2 * level) ' ', [':', ' ']⟩

def Layout.bracketed (layout : Layout) (level : Nat) (opening closing : Char)
    (parts : List (List Char)) : List Char :=
  if parts.isEmpty then [opening, closing]
  else
    let before := layout.breakAt (level + 1)
    opening :: before ++ separated (',' :: before) parts ++ layout.breakAt level ++ [closing]

mutual

-- A value that begins on a level.
def Value.write (layout : Layout) (level : Nat) : Value → List Char
  | .arr items => layout.bracketed level '[' ']' (Value.writeItems layout (level + 1) items)
  | .obj members =>
    layout.bracketed level '{' '}' (Value.writeMembers layout (level + 1) members)
  | .null => scalarText .null
  | .bool b => scalarText (.bool b)
  | .whole n => scalarText (.whole n)
  | .float x => scalarText (.float x)
  | .str text => scalarText (.str text)

def Value.writeItems (layout : Layout) (level : Nat) : List Value → List (List Char)
  | [] => []
  | item :: rest => Value.write layout level item :: Value.writeItems layout level rest

def Value.writeMembers (layout : Layout) (level : Nat) :
    List (String × Value) → List (List Char)
  | [] => []
  | (name, value) :: rest =>
    (quoted name ++ layout.colon ++ Value.write layout level value) ::
      Value.writeMembers layout level rest

end

def Value.compact (value : Value) : String :=
  String.ofList (value.write .compact 0)

def Value.pretty (value : Value) : String :=
  String.ofList (value.write .indented 0)

end TypeAtlas.Json
