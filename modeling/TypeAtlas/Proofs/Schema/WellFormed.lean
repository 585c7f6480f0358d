import Mathlib.Algebra.Group.Nat.Defs
import TypeAtlas.Proofs.Dump.Field
import TypeAtlas.Proofs.Schema.Embedding
import TypeAtlas.Proofs.Schema.Flattening

namespace TypeAtlas.Schema

open Dump

def Field.offsetValue? (field : Field) : Option UInt64 :=
  Offset.parse? field.offset

def Field.classification (field : Field) : Classification :=
  ⟨field.category, field.element⟩

-- The highest offset that has a value. Without one, it is zero.
def largestOffset (fields : List Field) : Nat :=
  ((fields.filterMap Field.offsetValue?).map UInt64.toNat).max?.getD 0

-- The fields that stand anywhere in a schema.
inductive HasField (schema : Schema) : Field → Prop
  | inStruct {name : String} {s : Struct} {field : Field} :
      schema.structs.get? name = some s → field ∈ s.fields → HasField schema field
  | inTemplate {name : String} {t : Template} {field : Field} :
      schema.templates.get? name = some t → field ∈ t.fields → HasField schema field
  | inEmbedded {name : String} {c : EmbeddedClass} {field : Field} :
      schema.embedded.get? name = some c → field ∈ c.fields → HasField schema field

-- A schema that says what the declarations of a dump say, and says it soundly.
structure WellFormed (rules : Rules) (index : Index) (schema : Schema) : Prop where
  templateNames : ∀ name, schema.templates.contains name = true ↔
    (∃ d ∈ index.declarations, d.kind = .classType ∧ d.name = name) ∧
      rules.isTemplateName name = true
  enumNames : ∀ name, schema.enums.contains name = true ↔
    ∃ d ∈ index.declarations, d.kind = .enumType ∧ d.name = name ∧
      ∃ member ∈ enumMembers d.body, member.value.isSome = true
  structNames : ∀ name, schema.structs.contains name = true ↔
    ∃ d ∈ index.declarations, d.kind = .structType ∧ d.name = name ∧
      fields rules .structType d.body ≠ []
  distinct : ∀ name t, schema.templates.get? name = some t → (t.fields.map Field.name).Nodup
  notGenerated : ∀ field, schema.HasField field → rules.isGeneratedField field.name = false
  offsetTexts : ∀ field, schema.HasField field → OffsetText field.offset
  templateOffsets : ∀ name t, schema.templates.get? name = some t →
    ∀ field ∈ t.fields, field.offsetValue? ≠ some 0
  embeddedOffsets : ∀ name c, schema.embedded.get? name = some c →
    ∀ field ∈ c.fields, field.offsetValue? ≠ some 0
  structOffsets : ∀ name s, schema.structs.get? name = some s →
    ∀ (i : Nat) (field : Field), s.fields[i]? = some field → field.offsetValue? = some 0 → i = 0
  structSizes : ∀ name s, schema.structs.get? name = some s →
    s.size.toNat = min (largestOffset s.fields + 4) (2 ^ 64 - 1)
  embeddedNames : ∀ name, schema.embedded.contains name = true → Wanted rules schema name
  embeddedFields : ∀ name c, schema.embedded.get? name = some c → c.fields ≠ []
  classified : ∀ field, schema.HasField field →
    field.classification = classify rules schema.knownTypes field.declaredType ∧
      (field.element.isSome = true ↔ field.category = .collection)

variable {rules : Rules} {text : List Char} {name : String}

theorem classification_ofRaw (known : KnownTypes) (raw : RawField) :
    (Field.ofRaw rules known raw).classification = classify rules known raw.declaredType := by
  rw [Field.ofRaw, Field.classification]

theorem foldl_max_eq (offsets : List UInt64) :
    offsets.foldl (fun n o => max n o.toNat) 0 = (offsets.map UInt64.toNat).max?.getD 0 := by
  cases offsets with
  | nil => rfl
  | cons offset rest =>
      rw [List.map_cons, List.max?_cons', Option.getD_some, List.foldl_map, List.foldl_cons,
        Nat.zero_max]

theorem structSize_toNat (known : KnownTypes) (raw : List RawField) :
    (structSize raw).toNat =
      min (largestOffset (raw.map (Field.ofRaw rules known)) + 4) (2 ^ 64 - 1) := by
  have hoffsets : (raw.map (Field.ofRaw rules known)).filterMap Field.offsetValue? =
      raw.filterMap RawField.offsetValue? := List.filterMap_map
  have hfits : min (largestOffset (raw.map (Field.ofRaw rules known)) + 4) (UInt64.size - 1) <
      UInt64.size := Nat.lt_of_le_of_lt (Nat.min_le_right _ _) (by decide)
  rw [structSize, foldl_max_eq, ← hoffsets]
  exact UInt64.toNat_ofNat_of_lt hfits

theorem mem_collectFields {index : Index} {raw : RawField}
    (h : raw ∈ collectFields rules index name) : ∃ body, raw ∈ fields rules .classType body := by
  have hlayers := (keepLast_sublist _).subset h
  obtain ⟨layer, hlayer, hraw⟩ := List.mem_flatMap.mp hlayers
  obtain ⟨d, -, rfl⟩ := List.mem_map.mp hlayer
  exact ⟨d.body, hraw⟩

-- A field of a schema is a classified field that a body declares.
theorem raw_of_hasField {field : Field} (h : (ofDump rules text).HasField field) :
    ∃ kind body raw, raw ∈ fields rules kind body ∧
      field = Field.ofRaw rules (ofDump rules text).knownTypes raw := by
  cases h with
  | inStruct hs hfield =>
      obtain ⟨d, -, -, rfl⟩ := struct_eq_some_iff.mp hs
      obtain ⟨raw, hraw, rfl⟩ := List.mem_map.mp hfield
      exact ⟨_, _, raw, hraw, rfl⟩
  | inTemplate ht hfield =>
      obtain ⟨d, -, -, rfl⟩ := template_eq_some_iff.mp ht
      obtain ⟨raw, hraw, rfl⟩ := List.mem_map.mp hfield
      obtain ⟨body, hbody⟩ := mem_collectFields hraw
      exact ⟨_, _, raw, hbody, rfl⟩
  | inEmbedded hc hfield =>
      obtain ⟨-, d, -, -, -, rfl⟩ := embedded_eq_some_iff.mp hc
      obtain ⟨raw, hraw, rfl⟩ := List.mem_map.mp hfield
      exact ⟨_, _, raw, (List.mem_filter.mp hraw).1, rfl⟩

-- An enum is read wherever one of its members has a value.
theorem exists_read?_iff (declared : Option String) (body : List Char) :
    (∃ e, Enum.read? declared body = some e) ↔
      ∃ member ∈ enumMembers body, member.value.isSome = true := by
  have hvalues : (enumMembers body).filterMap
        (fun m => m.value.map fun value => (m.name, value)) = [] ↔
      ∀ member ∈ enumMembers body, member.value = none := by
    simp
  simp only [Enum.read?, Enum.ofBody?]
  split
  · rename_i hempty
    rw [NameMap.isEmpty_ofList_iff, hvalues] at hempty
    simpa using hempty
  · rename_i hsome
    rw [NameMap.isEmpty_ofList_iff, hvalues] at hsome
    simpa [Option.isSome_iff_ne_none] using hsome

-- Every schema made from a dump is well-formed.
theorem ofDump_wellFormed (rules : Rules) (text : List Char) :
    WellFormed rules (Index.scan text) (ofDump rules text) := by
  constructor
  case templateNames =>
    intro name
    simp only [NameMap.contains_iff, template_eq_some_iff, Index.get?_scan_iff]
    constructor
    · rintro ⟨t, d, hd, htemplate, -⟩
      exact ⟨⟨d, hd⟩, htemplate⟩
    · rintro ⟨⟨d, hd⟩, htemplate⟩
      exact ⟨_, d, hd, htemplate, rfl⟩
  case enumNames =>
    intro name
    simp only [NameMap.contains_iff, enum_eq_some_iff, Index.get?_scan_iff]
    constructor
    · rintro ⟨e, d, ⟨hmem, hkind, hname⟩, he⟩
      exact ⟨d, hmem, hkind, hname, (exists_read?_iff _ _).mp ⟨e, he⟩⟩
    · rintro ⟨d, hmem, hkind, hname, hmember⟩
      obtain ⟨e, he⟩ := (exists_read?_iff d.base d.body).mpr hmember
      exact ⟨e, d, ⟨hmem, hkind, hname⟩, he⟩
  case structNames =>
    intro name
    simp only [NameMap.contains_iff, struct_eq_some_iff, Index.get?_scan_iff]
    constructor
    · rintro ⟨s, d, ⟨hmem, hkind, hname⟩, hfields, -⟩
      exact ⟨d, hmem, hkind, hname, hfields⟩
    · rintro ⟨d, hmem, hkind, hname, hfields⟩
      exact ⟨_, d, ⟨hmem, hkind, hname⟩, hfields, rfl⟩
  case distinct =>
    intro name t ht
    obtain ⟨d, -, -, rfl⟩ := template_eq_some_iff.mp ht
    rw [List.map_map]
    exact names_keepLast_nodup _
  case notGenerated =>
    intro field hfield
    obtain ⟨kind, body, raw, hraw, rfl⟩ := raw_of_hasField hfield
    exact not_generated_of_mem_fields hraw
  case offsetTexts =>
    intro field hfield
    obtain ⟨kind, body, raw, hraw, rfl⟩ := raw_of_hasField hfield
    exact offsetText_of_mem_fields hraw
  case templateOffsets =>
    intro name t ht field hfield
    obtain ⟨d, -, -, rfl⟩ := template_eq_some_iff.mp ht
    obtain ⟨raw, hraw, rfl⟩ := List.mem_map.mp hfield
    obtain ⟨body, hbody⟩ := mem_collectFields hraw
    exact offset_ne_zero_of_mem_fields (by decide) hbody
  case embeddedOffsets =>
    intro name c hc field hfield
    obtain ⟨-, d, -, -, -, rfl⟩ := embedded_eq_some_iff.mp hc
    obtain ⟨raw, hraw, rfl⟩ := List.mem_map.mp hfield
    exact offset_ne_zero_of_mem_fields (by decide) (List.mem_filter.mp hraw).1
  case structOffsets =>
    intro name s hs i field hfield hzero
    obtain ⟨d, -, -, rfl⟩ := struct_eq_some_iff.mp hs
    rw [List.getElem?_map] at hfield
    obtain ⟨raw, hraw, rfl⟩ := Option.map_eq_some_iff.mp hfield
    exact first_of_offset_zero hraw hzero
  case structSizes =>
    intro name s hs
    obtain ⟨d, -, -, rfl⟩ := struct_eq_some_iff.mp hs
    exact structSize_toNat _ _
  case embeddedNames =>
    intro name hname
    obtain ⟨c, hc⟩ := NameMap.contains_iff.mp hname
    exact (embedded_eq_some_iff.mp hc).1.wanted
  case embeddedFields =>
    intro name c hc
    obtain ⟨-, d, -, -, hown, rfl⟩ := embedded_eq_some_iff.mp hc
    exact fun hnone => hown (List.map_eq_nil_iff.mp hnone)
  case classified =>
    intro field hfield
    obtain ⟨kind, body, raw, -, rfl⟩ := raw_of_hasField hfield
    refine ⟨classification_ofRaw _ raw, ?_⟩
    rw [Option.isSome_iff_exists]
    exact (category_collection_iff _ _ _).symm

end TypeAtlas.Schema
