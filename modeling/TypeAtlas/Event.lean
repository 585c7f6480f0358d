import TypeAtlas.Dump.EnumBody
import TypeAtlas.Json.Value
import TypeAtlas.Schema.Hierarchy

namespace TypeAtlas

inductive Level
  | debug
  | info
  | warn
  deriving DecidableEq, Repr

def Level.label : Level → String
  | debug => "DEBUG"
  | info => "INFO"
  | warn => "WARN"

-- The two kinds of walks along bases.
inductive Chain
  | base
  | template
  deriving DecidableEq, Repr

def Chain.label : Chain → String
  | base => "base chain"
  | template => "template chain"

-- What is counted at the end of a stage.
inductive Tally
  | enums
  | structs
  | templates
  | chains
  | embedded
  deriving DecidableEq, Repr

def Tally.message : Tally → String
  | enums => "parsed enums"
  | structs => "parsed structs"
  | templates => "flattened templates"
  | chains => "resolved inheritance chains"
  | embedded => "discovered embedded classes"

inductive Event
  | genericSkipped (name : String)
  | bodyNotFound (kind : Dump.Kind) (name : String)
  | repeatIgnored (kind : Dump.Kind) (name : String)
  | indexed (declarations : Nat)
  | generatedSkipped (field : String)
  | zeroOffsetSkipped (field : String)
  | valueOutOfRange (member : String)
  | enumEmpty (name : String)
  | structEmpty (name : String)
  | fieldShadows (owner field : String)
  | cycle (chain : Chain) (type repeated : String)
  | tooDeep (chain : Chain) (type : String)
  | elementUndeclared (name : String)
  | counted (tally : Tally) (count : Nat)
  | noInstances
  deriving DecidableEq, Repr

namespace Event

def level : Event → Level
  | cycle .. | tooDeep .. | noInstances => .warn
  | counted .. => .info
  | _ => .debug

def message : Event → String
  | genericSkipped _ => "skipping generic declaration"
  | bodyNotFound _ _ => "declaration body not found"
  | repeatIgnored _ _ => "duplicate declaration ignored"
  | indexed _ => "indexed dump"
  | generatedSkipped _ => "skipping generated field"
  | zeroOffsetSkipped _ => "skipping offset-0 member"
  | valueOutOfRange _ => "enum value out of range"
  | enumEmpty _ => "enum without members skipped"
  | structEmpty _ => "struct without fields skipped"
  | fieldShadows _ _ => "field shadows an inherited field"
  | cycle chain _ _ => "inheritance cycle in " ++ chain.label
  | tooDeep chain _ => chain.label ++ " too deep, truncated"
  | elementUndeclared _ => "element type has no concrete class declaration"
  | counted tally _ => tally.message
  | noInstances => "no instance files found for any concrete template"

open Json (Value)

def details : Event → List (String × Value)
  | genericSkipped name | enumEmpty name | structEmpty name | elementUndeclared name =>
    [("name", .str name)]
  | bodyNotFound kind name | repeatIgnored kind name =>
    [("name", .str name), ("kind", .str kind.title)]
  | indexed declarations => [("declarations", .whole declarations)]
  | generatedSkipped field | zeroOffsetSkipped field => [("field", .str field)]
  | valueOutOfRange member => [("member", .str member)]
  | fieldShadows owner field => [("class", .str owner), ("field", .str field)]
  | cycle _ type repeated => [("type_name", .str type), ("repeated", .str repeated)]
  | tooDeep _ type => [("type_name", .str type), ("depth", .whole Schema.depthLimit)]
  | counted _ count => [("count", .whole count)]
  | noInstances => []

def value (event : Event) : Value :=
  .obj [("level", .str event.level.label), ("message", .str event.message),
    ("fields", .obj event.details)]

end Event

open Dump in
-- What a header that is not listed is worth telling.
def Dump.Finding.event? : Finding → Option Event
  | .generic name => some (.genericSkipped name)
  | .bodyless kind name => some (.bodyNotFound kind name)
  | .repeated kind name => some (.repeatIgnored kind name)
  | .listed _ => none

open Dump in
def Dump.FieldFinding.event? : FieldFinding → Option Event
  | .kept _ => none
  | .generated name => some (.generatedSkipped name)
  | .atZero name => some (.zeroOffsetSkipped name)

open Dump in
def Dump.EnumMember.event? (member : EnumMember) : Option Event :=
  if member.value.isNone then some (.valueOutOfRange member.name) else none

namespace Schema

def Stop.event? (chain : Chain) (name : String) : Stop → Option Event
  | .top => none
  | .cycle repeated => some (.cycle chain name repeated)
  | .tooDeep => some (.tooDeep chain name)

-- The fields of a class that hide one of the fields before them.
def shadowEvents (owner : String) (seen : List String) : List Dump.RawField → List Event
  | [] => []
  | field :: rest =>
    let events := shadowEvents owner (field.name :: seen) rest
    if seen.contains field.name then .fieldShadows owner field.name :: events else events

-- What the layers tell, after layers whose fields are `seen`.
def layerEvents (seen : List String) : List Layer → List Event
  | [] => []
  | layer :: rest =>
    layer.findings.filterMap Dump.FieldFinding.event? ++
      shadowEvents layer.declaration.name seen layer.fields ++
      layerEvents (layer.fields.map Dump.RawField.name ++ seen) rest

def Flattening.events (flattening : Flattening) : List Event :=
  (flattening.stop.event? .base flattening.name).toList ++ layerEvents [] flattening.layers

end Schema

end TypeAtlas
