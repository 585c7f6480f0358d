import TypeAtlas.Proofs.Json.Form
import TypeAtlas.Proofs.Json.Record
import TypeAtlas.Schema.Json

namespace TypeAtlas.Schema

open Json Json.Reader

section

variable {σ α : Type} {readers : List (Json.Field σ)} {parts : List Part}

def Written (value : α → Value) (x : α) (node : Node) : Prop :=
  node = (value x).node

theorem written_value (value : α → Value) (x : α) : Written value x (value x).node := rfl

theorem accepts_written {read : Reader α} {value : α → Value} (h : Inverts read value) :
    Accepts read (Written value) := by
  rintro x node rfl -
  exact h.read x

theorem apart_of_into {f g : Json.Field σ} {β : Type} {readF : Reader α} {readG : Reader β}
    {setF : α → σ → σ} {setG : β → σ → σ} (hf : f.read = into readF setF)
    (hg : g.read = into readG setG) (hset : ∀ v w s, setG w (setF v s) = setF v (setG w s)) :
    f.Apart g := by
  intro a b s t
  rw [hf, hg]
  simp only [into]
  cases readF a <;> cases readG b <;> simp [Except.map, hset]

theorem listForm_value {form : α → Node → Prop} {value : α → Value}
    (h : ∀ x, form x (value x).node) (xs : List α) :
    ListForm form xs (Value.arr (xs.map value)).node := by
  refine ⟨_, rfl, ?_⟩
  rw [Value.nodes_eq_map, List.map_map, List.forall₂_map_right_iff, List.forall₂_same]
  exact fun x _ => h x

theorem mapForm_value {form : α → Node → Prop} {value : α → Value}
    (h : ∀ x, form x (value x).node) (map : NameMap α) :
    MapForm form map (mapValue value map).node := by
  refine ⟨_, map.entries, rfl, .refl _, ?_⟩
  rw [Value.memberNodes_eq_map, List.map_map, List.forall₂_map_right_iff, List.forall₂_same]
  exact fun entry _ => ⟨rfl, h entry.2⟩

-- A field is read into the record by the reader of its values.
theorem fits_into {field : Json.Field σ} {part : Part} {read : Reader α} {set : α → σ → σ}
    {form : α → Node → Prop} (haccepts : Accepts read form) (v : α) {s x : σ}
    (hread : field.read = into read set) (hnames : field.names = part.names)
    (hform : part.form = form v)
    (hlack : part.mayLack → field.presence ≠ .required ∧ set v s = s)
    (hrest : Json.Field.Fits readers parts (set v s) x) :
    Json.Field.Fits (field :: readers) (part :: parts) s x := by
  refine .cons hnames ?_ hlack hrest
  intro node hnode hwhole
  rw [hform] at hnode
  rw [hread, into, haccepts v node hnode hwhole]
  rfl

-- A part that is lacking has the value that the record starts with.
theorem fits_optional {field : Json.Field σ} {part : Part} {read : Reader α} {set : α → σ → σ}
    {form : α → Node → Prop} (haccepts : Accepts read form) (v : α) {absent : α} {s x : σ}
    (hread : field.read = into read set) (hnames : field.names = part.names)
    (hform : part.form = form v) (hlack : part.mayLack → v = absent)
    (hpresence : field.presence ≠ .required) (hstart : set absent s = s)
    (hrest : Json.Field.Fits readers parts (set v s) x) :
    Json.Field.Fits (field :: readers) (part :: parts) s x := by
  refine fits_into haccepts v hread hnames hform ?_ hrest
  intro h
  rw [hlack h]
  exact ⟨hpresence, hstart⟩

-- A value of the form that is read is read back from what is written.
theorem inverts_of_accepts {read : Reader α} {form : α → Node → Prop} {value : α → Value}
    (haccepts : Accepts read form) (hform : ∀ x, form x (value x).node)
    (hexact : ∀ x, (value x).isExact = true) : Inverts read value where
  exact := hexact
  read x := haccepts x _ (hform x) (whole_of_read (read_pretty _ (hexact x)))

end

theorem names_inverts : Inverts (Reader.list Reader.str) Value.names :=
  list_inverts str_inverts

theorem Category.ofTag_tag (category : Category) : Category.ofTag category.tag = category := by
  cases category <;> rfl

-- The tags that stand for a category: its own, an older one, and any that is no category's for the
-- unknown one.
inductive Category.HasTag : Category → String → Prop
  | own (category : Category) : HasTag category category.tag
  | olderAsset : HasTag .externalAsset "unity_asset"
  | olderText : HasTag .localizedText "localization"
  | unrecognized {tag : String} :
      (∀ category : Category, tag ≠ category.tag) → tag ≠ "unity_asset" → tag ≠ "localization" →
      HasTag .unknown tag

theorem Category.ofTag_of_hasTag {category : Category} {tag : String} (h : category.HasTag tag) :
    ofTag tag = category := by
  cases h with
  | own => exact ofTag_tag category
  | olderAsset => rfl
  | olderText => rfl
  | unrecognized hnone hasset htext =>
      have htags : tag ≠ "primitive" ∧ tag ≠ "string" ∧ tag ≠ "enum" ∧ tag ≠ "struct" ∧
          tag ≠ "reference" ∧ tag ≠ "collection" ∧ tag ≠ "external_asset" ∧
          tag ≠ "localized_text" :=
        ⟨hnone .primitive, hnone .string, hnone .enum, hnone .struct, hnone .reference,
          hnone .collection, hnone .externalAsset, hnone .localizedText⟩
      simp [ofTag, hasset, htext, htags]

def Field.parts (field : Field) : List Part :=
  [⟨["name"], Written .str field.name, False⟩,
   ⟨["type", "declared_type"], Written .str field.declaredType, False⟩,
   ⟨["offset"], Written .str field.offset, False⟩,
   ⟨["category"], fun node => ∃ tag, field.category.HasTag tag ∧ Written .str tag node,
    field.category = .unknown⟩,
   ⟨["element_type"], Written .text? field.element, field.element = none⟩]

def Field.Form (field : Field) : Node → Prop :=
  RecordForm field.parts

theorem Field.accepts : Accepts Field.read Field.Form := by
  intro field node
  refine Json.Field.record_of_form (by decide) ?_ ?_
  · simp only [Field.readers, List.pairwise_cons, List.forall_mem_cons, List.not_mem_nil,
      false_implies, implies_true, List.Pairwise.nil, and_true]
    and_intros <;> exact apart_of_into rfl rfl fun _ _ _ => rfl
  · refine fits_into (accepts_written str_inverts) field.name rfl rfl rfl nofun ?_
    refine fits_into (accepts_written str_inverts) field.declaredType rfl rfl rfl nofun ?_
    refine fits_into (accepts_written str_inverts) field.offset rfl rfl rfl nofun ?_
    refine .cons (t := ⟨field.name, field.declaredType, field.offset, field.category, none⟩) rfl
      ?_ ?_ ?_
    · rintro node ⟨tag, htag, rfl⟩ -
      rw [← Category.ofTag_of_hasTag htag]
      rfl
    · intro hunknown
      rw [hunknown]
      exact ⟨nofun, rfl⟩
    · exact fits_optional (accepts_written optional_str_inverts) field.element rfl rfl rfl id nofun
        rfl .nil

theorem Field.form_value (field : Field) : field.Form field.value.node := by
  obtain ⟨name, declaredType, offset, category, element⟩ := field
  have hcategory : ∃ tag, category.HasTag tag ∧ Written .str tag (Value.str category.tag).node :=
    ⟨category.tag, .own category, rfl⟩
  cases element with
  | none =>
      apply recordForm_of_gives
      exact .given (.head _) rfl <| .given (.head _) rfl <| .given (.head _) rfl <|
        .given (.head _) hcategory <| .lacking rfl .nil
  | some element =>
      apply recordForm_of_gives
      exact .given (.head _) rfl <| .given (.head _) rfl <| .given (.head _) rfl <|
        .given (.head _) hcategory <| .given (.head _) rfl .nil

def Enum.parts (enum : Enum) : List Part :=
  [⟨["underlying_type"], Written .str enum.underlyingType, False⟩,
   ⟨["values"], MapForm (Written fun n => .whole n.toInt) enum.values, False⟩]

def Enum.Form (enum : Enum) : Node → Prop :=
  RecordForm enum.parts

theorem Enum.accepts : Accepts Enum.read Enum.Form := by
  intro enum node
  refine Json.Field.record_of_form (by decide) ?_ ?_
  · exact List.pairwise_pair.mpr (apart_of_into rfl rfl fun _ _ _ => rfl)
  · refine fits_into (accepts_written str_inverts) enum.underlyingType rfl rfl rfl nofun ?_
    exact fits_into (accepts_written int64_inverts).map enum.values rfl rfl rfl nofun .nil

theorem Enum.form_value (enum : Enum) : enum.Form enum.value.node :=
  recordForm_of_gives <| .given (.head _) rfl <|
    .given (.head _) (mapForm_value (written_value fun n => .whole n.toInt) enum.values) .nil

def Struct.parts (struct : Struct) : List Part :=
  [⟨["size_bytes"], Written (fun n => .whole n.toNat) struct.size, False⟩,
   ⟨["fields"], ListForm Field.Form struct.fields, False⟩]

def Struct.Form (struct : Struct) : Node → Prop :=
  RecordForm struct.parts

theorem Struct.accepts : Accepts Struct.read Struct.Form := by
  intro struct node
  refine Json.Field.record_of_form (by decide) ?_ ?_
  · exact List.pairwise_pair.mpr (apart_of_into rfl rfl fun _ _ _ => rfl)
  · refine fits_into (accepts_written uint64_inverts) struct.size rfl rfl rfl nofun ?_
    exact fits_into Field.accepts.list struct.fields rfl rfl rfl nofun .nil

theorem Struct.form_value (struct : Struct) : struct.Form struct.value.node :=
  recordForm_of_gives <| .given (.head _) rfl <|
    .given (.head _) (listForm_value Field.form_value struct.fields) .nil

def Template.parts (template : Template) : List Part :=
  [⟨["base_class"], Written .text? template.base, template.base = none⟩,
   ⟨["is_abstract"], Written .bool template.isAbstract, False⟩,
   ⟨["fields"], ListForm Field.Form template.fields, False⟩]

def Template.Form (template : Template) : Node → Prop :=
  RecordForm template.parts

theorem Template.accepts : Accepts Template.read Template.Form := by
  intro template node
  refine Json.Field.record_of_form (by decide) ?_ ?_
  · simp only [Template.readers, List.pairwise_cons, List.forall_mem_cons, List.not_mem_nil,
      false_implies, implies_true, List.Pairwise.nil, and_true]
    and_intros <;> exact apart_of_into rfl rfl fun _ _ _ => rfl
  · refine fits_optional (accepts_written optional_str_inverts) template.base rfl rfl rfl id nofun
      rfl ?_
    refine fits_into (accepts_written bool_inverts) template.isAbstract rfl rfl rfl nofun ?_
    exact fits_into Field.accepts.list template.fields rfl rfl rfl nofun .nil

theorem Template.form_value (template : Template) : template.Form template.value.node :=
  recordForm_of_gives <| .given (.head _) rfl <| .given (.head _) rfl <|
    .given (.head _) (listForm_value Field.form_value template.fields) .nil

def EmbeddedClass.parts (embedded : EmbeddedClass) : List Part :=
  [⟨["base_class"], Written .text? embedded.base, embedded.base = none⟩,
   ⟨["fields"], ListForm Field.Form embedded.fields, False⟩]

def EmbeddedClass.Form (embedded : EmbeddedClass) : Node → Prop :=
  RecordForm embedded.parts

theorem EmbeddedClass.accepts : Accepts EmbeddedClass.read EmbeddedClass.Form := by
  intro embedded node
  refine Json.Field.record_of_form (by decide) ?_ ?_
  · exact List.pairwise_pair.mpr (apart_of_into rfl rfl fun _ _ _ => rfl)
  · refine fits_optional (accepts_written optional_str_inverts) embedded.base rfl rfl rfl id nofun
      rfl ?_
    exact fits_into Field.accepts.list embedded.fields rfl rfl rfl nofun .nil

theorem EmbeddedClass.form_value (embedded : EmbeddedClass) :
    embedded.Form embedded.value.node :=
  recordForm_of_gives <| .given (.head _) rfl <|
    .given (.head _) (listForm_value Field.form_value embedded.fields) .nil

def parts (schema : Schema) : List Part :=
  [⟨["version"], Written .str schema.version, False⟩,
   ⟨["dump_hash"], Written .str schema.hash, False⟩,
   ⟨["enums"], MapForm Enum.Form schema.enums, schema.enums = .empty⟩,
   ⟨["structs"], MapForm Struct.Form schema.structs, schema.structs = .empty⟩,
   ⟨["embedded_classes"], MapForm EmbeddedClass.Form schema.embedded, schema.embedded = .empty⟩,
   ⟨["templates"], MapForm Template.Form schema.templates, schema.templates = .empty⟩,
   ⟨["inheritance"], MapForm (Written Value.names) schema.inheritance,
    schema.inheritance = .empty⟩]

-- The trees that stand for a schema.
def Form (schema : Schema) : Node → Prop :=
  RecordForm schema.parts

theorem accepts : Accepts read Form := by
  intro schema node
  refine Json.Field.record_of_form (by decide) ?_ ?_
  · simp only [readers, List.pairwise_cons, List.forall_mem_cons, List.not_mem_nil,
      false_implies, implies_true, List.Pairwise.nil, and_true]
    and_intros <;> exact apart_of_into rfl rfl fun _ _ _ => rfl
  · refine fits_into (accepts_written str_inverts) schema.version rfl rfl rfl nofun ?_
    refine fits_into (accepts_written str_inverts) schema.hash rfl rfl rfl nofun ?_
    refine fits_optional Enum.accepts.map schema.enums rfl rfl rfl id nofun rfl ?_
    refine fits_optional Struct.accepts.map schema.structs rfl rfl rfl id nofun rfl ?_
    refine fits_optional EmbeddedClass.accepts.map schema.embedded rfl rfl rfl id nofun rfl ?_
    refine fits_optional Template.accepts.map schema.templates rfl rfl rfl id nofun rfl ?_
    exact fits_optional (accepts_written names_inverts).map schema.inheritance rfl rfl rfl id nofun
      rfl .nil

theorem form_value (schema : Schema) : schema.Form schema.value.node :=
  recordForm_of_gives <| .given (.head _) rfl <| .given (.head _) rfl <|
    .given (.head _) (mapForm_value Enum.form_value schema.enums) <|
    .given (.head _) (mapForm_value Struct.form_value schema.structs) <|
    .given (.head _) (mapForm_value EmbeddedClass.form_value schema.embedded) <|
    .given (.head _) (mapForm_value Template.form_value schema.templates) <|
    .given (.head _) (mapForm_value (written_value _) schema.inheritance) .nil

end TypeAtlas.Schema
