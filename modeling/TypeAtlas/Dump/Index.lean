import TypeAtlas.Text.Line
import TypeAtlas.Dump.Nesting
import TypeAtlas.Dump.Header

namespace TypeAtlas.Dump

open Text

structure Declaration where
  kind : Kind
  name : String
  isAbstract : Bool
  base : Option String
  -- The text between the braces.
  body : List Char
  deriving DecidableEq

-- The block that follows a header. Anything may stand before it on the header's own line, and below
-- that line only layout and line comments.
def bodyFrom? (below comment : Bool) : List Char → Option (List Char)
  | [] => none
  | '/' :: '/' :: rest => bodyFrom? below true rest
  | c :: rest =>
    if c = '\n' then bodyFrom? true false rest
    else if comment then bodyFrom? below true rest
    else if c = '{' then (enclosed? rest).map Prod.fst
    else if c = ';' || c = '}' then none
    else if isLayout c || !below then bodyFrom? below false rest
    else none

def body? (text : List Char) : Option (List Char) :=
  bodyFrom? false false text

-- A header in a dump and the block that follows it, if the header is followed by one.
structure Sighting where
  header : Header
  body : Option (List Char)

-- The header a line begins with. Type parameters leave the block unread.
def sighting? (text : List Char) : Option Sighting :=
  (Header.read? text).map fun (header, rest) =>
    ⟨header, if header.isGeneric then none else body? rest⟩

-- The headers of a dump, line by line.
def sightings (text : List Char) : List Sighting :=
  let first := (sighting? text).toList
  match _h : afterLine? text with
  | some rest => first ++ sightings rest
  | none => first
termination_by text.length
decreasing_by exact afterLine?_length _h

-- What becomes of a header.
inductive Finding
  | generic (name : String)
  | bodyless (kind : Kind) (name : String)
  | repeated (kind : Kind) (name : String)
  | listed (declaration : Declaration)

-- Judges headers in the order of the dump, after those that `earlier` declarations came from. Of
-- several with one kind and name the first is the declaration.
def judge (earlier : List Declaration) : List Sighting → List Finding
  | [] => []
  | ⟨header, body⟩ :: rest =>
    if header.isGeneric then .generic header.name :: judge earlier rest
    else
      match body with
      | none => .bodyless header.kind header.name :: judge earlier rest
      | some body =>
        if earlier.any fun d => d.kind == header.kind && d.name == header.name then
          .repeated header.kind header.name :: judge earlier rest
        else
          let declaration := ⟨header.kind, header.name, header.isAbstract, header.base, body⟩
          .listed declaration :: judge (declaration :: earlier) rest

def findings (text : List Char) : List Finding :=
  judge [] (sightings text)

def Finding.declaration? : Finding → Option Declaration
  | listed declaration => some declaration
  | _ => none

structure Index where
  declarations : List Declaration

namespace Index

def ofFindings (found : List Finding) : Index :=
  ⟨found.filterMap Finding.declaration?⟩

def scan (text : List Char) : Index :=
  ofFindings (findings text)

def ofKind (index : Index) (kind : Kind) : List Declaration :=
  index.declarations.filter fun d => d.kind == kind

def get? (index : Index) (kind : Kind) (name : String) : Option Declaration :=
  index.declarations.find? fun d => d.kind == kind && d.name == name

def size (index : Index) : Nat :=
  index.declarations.length

end Index

end TypeAtlas.Dump
