import TypeAtlas.NameMap
import TypeAtlas.Offset
import TypeAtlas.Text.Utf8

namespace TypeAtlas

namespace Schema

-- What a field holds, by its declared type.
inductive Category
  | primitive
  | string
  | enum
  | struct
  | reference
  | collection
  | externalAsset
  | localizedText
  | unknown
  deriving DecidableEq, Repr

namespace Category

def tag : Category → String
  | primitive => "primitive"
  | string => "string"
  | enum => "enum"
  | struct => "struct"
  | reference => "reference"
  | collection => "collection"
  | externalAsset => "external_asset"
  | localizedText => "localized_text"
  | unknown => "unknown"

-- Two categories have an older tag besides, and a tag that is none means nothing known.
def ofTag (tag : String) : Category :=
  if tag = "primitive" then primitive
  else if tag = "string" then string
  else if tag = "enum" then enum
  else if tag = "struct" then struct
  else if tag = "reference" then reference
  else if tag = "collection" then collection
  else if tag = "external_asset" || tag = "unity_asset" then externalAsset
  else if tag = "localized_text" || tag = "localization" then localizedText
  else unknown

-- Whether values show up as plain keys of extracted instances.
def isSimple : Category → Bool
  | collection | externalAsset | localizedText | unknown => false
  | _ => true

end Category

structure Field where
  name : String
  declaredType : String
  offset : String
  category : Category
  -- The type of the elements of a collection.
  element : Option String
  deriving DecidableEq, Repr

structure Enum where
  underlyingType : String
  values : NameMap Int64
  deriving DecidableEq

structure Struct where
  size : UInt64
  fields : List Field
  deriving DecidableEq

structure Template where
  base : Option String
  isAbstract : Bool
  -- The fields of all ancestors and its own.
  fields : List Field
  deriving DecidableEq

structure EmbeddedClass where
  base : Option String
  fields : List Field
  deriving DecidableEq

end Schema

structure Schema where
  version : String
  -- The digest of the dump.
  hash : String
  enums : NameMap Schema.Enum
  structs : NameMap Schema.Struct
  embedded : NameMap Schema.EmbeddedClass
  templates : NameMap Schema.Template
  -- For each template with ancestors their names and its own, from the root on.
  inheritance : NameMap (List String)
  deriving DecidableEq

namespace Schema

def formatVersion : String :=
  "1.0.0"

-- The first sixteen bytes of a digest, or all of it where a character crosses that mark.
def shortHash (hash : String) : String :=
  match Text.dropBytes? 16 hash.toList with
  | some rest => String.ofList (hash.toList.take (hash.toList.length - rest.length))
  | none => hash

-- The templates that can have instances.
def concrete (schema : Schema) : NameMap Template :=
  schema.templates.filter fun _ template => !template.isAbstract

-- How much a schema holds.
structure Summary where
  enums : Nat
  structs : Nat
  embedded : Nat
  templates : Nat
  concrete : Nat
  abstract : Nat
  templateFields : Nat
  chains : Nat
  deriving DecidableEq, Repr

def summary (schema : Schema) : Summary where
  enums := schema.enums.size
  structs := schema.structs.size
  embedded := schema.embedded.size
  templates := schema.templates.size
  concrete := schema.concrete.size
  abstract := schema.templates.size - schema.concrete.size
  templateFields := (schema.templates.values.flatMap Template.fields).length
  chains := schema.inheritance.size

end Schema

end TypeAtlas
