import TypeAtlas.Json.Printer
import TypeAtlas.Json.Record
import TypeAtlas.Schema.Basic

namespace TypeAtlas.Schema

open Json (Node Problem Value Reader)

-- Reads a value into a part of a record.
def into {σ α : Type} (read : Reader α) (set : α → σ → σ) (node : Node) (s : σ) :
    Except Problem σ :=
  (read node).map fun value => set value s

namespace Field

def empty : Field :=
  ⟨"", "", "", .unknown, none⟩

def readers : List (Json.Field Field) :=
  [⟨"name", [], .required, into Reader.str fun v f => { f with name := v }⟩,
   ⟨"type", ["declared_type"], .required, into Reader.str fun v f => { f with declaredType := v }⟩,
   ⟨"offset", [], .required, into Reader.str fun v f => { f with offset := v }⟩,
   ⟨"category", [], .defaulted,
    into Reader.str fun v f => { f with category := Category.ofTag v }⟩,
   ⟨"element_type", [], .defaulted,
    into (Reader.optional Reader.str) fun v f => { f with element := v }⟩]

def read : Reader Field :=
  Json.Field.record readers empty

def value (field : Field) : Value :=
  .obj ([("name", .str field.name), ("type", .str field.declaredType),
    ("offset", .str field.offset), ("category", .str field.category.tag)] ++
    (field.element.map fun element => ("element_type", Value.str element)).toList)

end Field

namespace Enum

def empty : Enum :=
  ⟨"", .empty⟩

def readers : List (Json.Field Enum) :=
  [⟨"underlying_type", [], .required,
    into Reader.str fun v e => { e with underlyingType := v }⟩,
   ⟨"values", [], .required, into (Reader.map Reader.int64) fun v e => { e with values := v }⟩]

def read : Reader Enum :=
  Json.Field.record readers empty

def value (enum : Enum) : Value :=
  .obj [("underlying_type", .str enum.underlyingType),
    ("values", .obj (enum.values.entries.map fun (name, n) => (name, .whole n.toInt)))]

end Enum

namespace Struct

def empty : Struct :=
  ⟨0, []⟩

def readers : List (Json.Field Struct) :=
  [⟨"size_bytes", [], .required, into Reader.uint64 fun v s => { s with size := v }⟩,
   ⟨"fields", [], .required, into (Reader.list Field.read) fun v s => { s with fields := v }⟩]

def read : Reader Struct :=
  Json.Field.record readers empty

def value (struct : Struct) : Value :=
  .obj [("size_bytes", .whole struct.size.toNat),
    ("fields", .arr (struct.fields.map Field.value))]

end Struct

namespace Template

def empty : Template :=
  ⟨none, false, []⟩

def readers : List (Json.Field Template) :=
  [⟨"base_class", [], .optional,
    into (Reader.optional Reader.str) fun v t => { t with base := v }⟩,
   ⟨"is_abstract", [], .required, into Reader.bool fun v t => { t with isAbstract := v }⟩,
   ⟨"fields", [], .required, into (Reader.list Field.read) fun v t => { t with fields := v }⟩]

def read : Reader Template :=
  Json.Field.record readers empty

def value (template : Template) : Value :=
  .obj [("base_class", .text? template.base), ("is_abstract", .bool template.isAbstract),
    ("fields", .arr (template.fields.map Field.value))]

end Template

namespace EmbeddedClass

def empty : EmbeddedClass :=
  ⟨none, []⟩

def readers : List (Json.Field EmbeddedClass) :=
  [⟨"base_class", [], .optional,
    into (Reader.optional Reader.str) fun v c => { c with base := v }⟩,
   ⟨"fields", [], .required, into (Reader.list Field.read) fun v c => { c with fields := v }⟩]

def read : Reader EmbeddedClass :=
  Json.Field.record readers empty

def value (embedded : EmbeddedClass) : Value :=
  .obj [("base_class", .text? embedded.base),
    ("fields", .arr (embedded.fields.map Field.value))]

end EmbeddedClass

def empty : Schema :=
  ⟨"", "", .empty, .empty, .empty, .empty, .empty⟩

def readers : List (Json.Field Schema) :=
  [⟨"version", [], .required, into Reader.str fun v s => { s with version := v }⟩,
   ⟨"dump_hash", [], .required, into Reader.str fun v s => { s with hash := v }⟩,
   ⟨"enums", [], .defaulted, into (Reader.map Enum.read) fun v s => { s with enums := v }⟩,
   ⟨"structs", [], .defaulted, into (Reader.map Struct.read) fun v s => { s with structs := v }⟩,
   ⟨"embedded_classes", [], .defaulted,
    into (Reader.map EmbeddedClass.read) fun v s => { s with embedded := v }⟩,
   ⟨"templates", [], .defaulted,
    into (Reader.map Template.read) fun v s => { s with templates := v }⟩,
   ⟨"inheritance", [], .defaulted,
    into (Reader.map (Reader.list Reader.str)) fun v s => { s with inheritance := v }⟩]

-- Reading allows for unknown keys, absent defaults, older names, and lists in place of objects.
def read : Reader Schema :=
  Json.Field.record readers empty

-- Reads the text of a schema file.
def readText (text : List Char) : Except Problem Schema :=
  (Json.Document.read text).decode read

-- A map as an object.
def mapValue {α : Type} (value : α → Value) (map : NameMap α) : Value :=
  .obj (map.entries.map fun (name, entry) => (name, value entry))

def value (schema : Schema) : Value :=
  .obj [("version", .str schema.version), ("dump_hash", .str schema.hash),
    ("enums", mapValue Enum.value schema.enums),
    ("structs", mapValue Struct.value schema.structs),
    ("embedded_classes", mapValue EmbeddedClass.value schema.embedded),
    ("templates", mapValue Template.value schema.templates),
    ("inheritance", mapValue Value.names schema.inheritance)]

-- The text of a schema file.
def fileText (schema : Schema) : String :=
  schema.value.pretty

def Summary.members (summary : Summary) : List (String × Value) :=
  [("enums", .whole summary.enums), ("structs", .whole summary.structs),
    ("embedded_classes", .whole summary.embedded), ("templates", .whole summary.templates),
    ("concrete_templates", .whole summary.concrete),
    ("abstract_templates", .whole summary.abstract),
    ("template_fields", .whole summary.templateFields),
    ("inheritance_chains", .whole summary.chains)]

end TypeAtlas.Schema
