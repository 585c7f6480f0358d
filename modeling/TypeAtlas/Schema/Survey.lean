import TypeAtlas.Sha256
import TypeAtlas.Text.Utf8
import TypeAtlas.Dump.EnumBody
import TypeAtlas.Schema.Classify
import TypeAtlas.Schema.Hierarchy

namespace TypeAtlas.Schema

open Dump

-- What a dump declares, before fields are classified.
structure Survey where
  findings : List Finding
  enums : List (Declaration × List EnumMember)
  structs : List (Declaration × List FieldFinding)
  templates : List (Declaration × Flattening)

namespace Survey

def ofText (rules : Rules) (text : List Char) : Survey :=
  let findings := Dump.findings text
  let index := Index.ofFindings findings
  { findings
    enums := (index.ofKind .enumType).map fun d => (d, enumMembers d.body)
    structs := (index.ofKind .structType).map fun d => (d, fieldFindings rules .structType d.body)
    templates := ((index.ofKind .classType).filter fun d => rules.isTemplateName d.name).map
      fun d => (d, flatten rules index d.name) }

def index (survey : Survey) : Index :=
  .ofFindings survey.findings

end Survey

-- An enum, unless none of its members has a value. Its storage is the one its body gives, else the
-- declared one, else int.
def Enum.ofBody? (declared : Option String) (body : List Char) (members : List EnumMember) :
    Option Enum :=
  let values := NameMap.ofList (members.filterMap fun m => m.value.map fun value => (m.name, value))
  if values.isEmpty then none
  else some ⟨((storage? body).orElse fun _ => declared).getD "int", values⟩

def Enum.read? (declared : Option String) (body : List Char) : Option Enum :=
  Enum.ofBody? declared body (enumMembers body)

namespace Survey

def enumMap (survey : Survey) : NameMap Enum :=
  .ofList (survey.enums.filterMap fun (d, members) =>
    (Enum.ofBody? d.base d.body members).map fun e => (d.name, e))

-- The structs that have fields.
def structFields (survey : Survey) : NameMap (List RawField) :=
  .ofList (survey.structs.filterMap fun (d, findings) =>
    let fields := findings.filterMap FieldFinding.field?
    if fields.isEmpty then none else some (d.name, fields))

def templateMap (survey : Survey) : NameMap (Declaration × Flattening) :=
  .ofList (survey.templates.map fun (d, flattening) => (d.name, d, flattening))

end Survey

def Field.ofRaw (rules : Rules) (known : KnownTypes) (field : RawField) : Field :=
  let c := classify rules known field.declaredType
  ⟨field.name, field.declaredType, field.offset, c.category, c.element⟩

-- Four bytes behind the highest offset, as far as 64 bits go.
def structSize (fields : List RawField) : UInt64 :=
  let highest := (fields.filterMap RawField.offsetValue?).foldl (fun n o => max n o.toNat) 0
  UInt64.ofNat (min (highest + 4) (UInt64.size - 1))

-- The search for embedded classes: which names are looked up, and what a class is made of.
structure Search where
  rules : Rules
  known : KnownTypes
  skip : NameSet

-- A name that was looked up.
inductive Visit
  -- No class that is not abstract has this name.
  | undeclared (name : String)
  | declared (declaration : Declaration) (findings : List FieldFinding) (fields : List Field)

namespace Search

def wants (search : Search) (name : String) : Bool :=
  !search.known.contains name && !search.skip.contains name

def visit (search : Search) (d : Declaration) : Visit :=
  let findings := fieldFindings search.rules .classType d.body
  let kept := (findings.filterMap FieldFinding.field?).filter fun field =>
    !search.rules.embeddedSkipFields.contains field.name
  .declared d findings (kept.map (Field.ofRaw search.rules search.known))

end Search

-- The element types of the fields of a class.
def Visit.elements : Visit → List String
  | undeclared _ => []
  | declared _ _ fields => fields.filterMap Field.element

def Visit.embedded? : Visit → Option (String × EmbeddedClass)
  | undeclared _ => none
  | declared d _ fields => if fields.isEmpty then none else some (d.name, ⟨d.base, fields⟩)

-- The declarations of other names.
def others (name : String) (classes : List Declaration) : List Declaration :=
  classes.filter fun d => d.name != name

theorem others_length {name : String} {classes : List Declaration} {d : Declaration}
    (h : classes.find? (fun d => d.name == name) = some d) :
    (others name classes).length < classes.length := by
  refine List.length_filter_lt_length_iff_exists.mpr ⟨d, List.mem_of_find?_eq_some h, ?_⟩
  have := List.find?_some h
  simpa using this

-- Looks up the names of `work` in their order and the wanted elements of the classes found. `classes`
-- are those not visited, and `done` the names looked up.
def Search.visits (search : Search) (classes : List Declaration) (done : List String)
    (work : NameSet) : List Visit :=
  match _hw : work.pop? with
  | none => []
  | some ((name, _), rest) =>
    match _hc : classes.find? fun d => d.name == name with
    | none => .undeclared name :: search.visits classes (name :: done) rest
    | some d =>
      let visit := if d.isAbstract then .undeclared name else search.visit d
      let fresh := visit.elements.filter fun element =>
        search.wants element && !(name :: done).contains element
      visit :: search.visits (others name classes) (name :: done)
        (fresh.foldl NameSet.add rest)
termination_by (classes.length, work.size)
decreasing_by
  · apply Prod.Lex.right
    rw [NameMap.size_of_pop? _hw]
    exact Nat.lt_succ_self _
  · apply Prod.Lex.left
    exact others_length _hc

-- A schema in the making.
structure Build where
  survey : Survey
  enums : NameMap Enum
  structs : NameMap Struct
  templates : NameMap Template
  -- The ancestry of each template.
  ancestries : NameMap (Walk String)
  visits : List Visit

namespace Build

-- All names are known before the first field is classified, so the order of declarations does not
-- matter. Embedded classes come last: those that are elements of the collections found so far.
def ofText (rules : Rules) (text : List Char) : Build :=
  let survey := Survey.ofText rules text
  let enums := survey.enumMap
  let structFields := survey.structFields
  let pending := survey.templateMap
  let known : KnownTypes := ⟨.domain enums, .domain structFields, .domain pending⟩
  let classified (fields : List RawField) : List Field := fields.map (Field.ofRaw rules known)
  let templates := pending.map fun _ (d, flattening) =>
    (⟨d.base, d.isAbstract, classified flattening.fields⟩ : Template)
  let search : Search := ⟨rules, known, rules.skipTypes⟩
  let elements := templates.values.flatMap fun template => template.fields.filterMap Field.element
  { survey
    enums
    structs := structFields.map fun _ fields => ⟨structSize fields, classified fields⟩
    templates
    ancestries := templates.map fun name _ => ancestry templates name
    visits := search.visits (survey.index.ofKind .classType) []
      (.ofNames (elements.filter search.wants)) }

def embedded (build : Build) : NameMap EmbeddedClass :=
  .ofList (build.visits.filterMap Visit.embedded?)

-- The chains of templates that have ancestors.
def inheritance (build : Build) : NameMap (List String) :=
  (build.ancestries.map fun _ walk => walk.steps).filter fun _ chain => 2 ≤ chain.length

def schema (build : Build) (hash : String) : Schema where
  version := formatVersion
  hash
  enums := build.enums
  structs := build.structs
  embedded := build.embedded
  templates := build.templates
  inheritance := build.inheritance

end Build

-- The schema of a dump.
def ofDump (rules : Rules) (text : List Char) : Schema :=
  (Build.ofText rules text).schema (Sha256.hexDigest (Text.encode text))

-- The schema of a dump given as bytes. The digest is that of the bytes as they are, and what is no
-- text in them is read as replacement characters.
def ofDumpBytes (rules : Rules) (bytes : List UInt8) : Schema :=
  (Build.ofText rules (Text.decodeLossy bytes)).schema (Sha256.hexDigest bytes)

end TypeAtlas.Schema
