import TypeAtlas.Proofs.Schema.Search

namespace TypeAtlas.Schema

open Dump

-- The names that are looked for: those that the schema does not know yet and that may be embedded.
def Wanted (rules : Rules) (schema : Schema) (name : String) : Prop :=
  schema.enums.contains name = false ∧ schema.structs.contains name = false ∧
    schema.templates.contains name = false ∧ rules.skipTypes.contains name = false

def Field.IsCollectionOf (field : Field) (element : String) : Prop :=
  field.category = .collection ∧ field.element = some element

-- The fields of a class's own body that it keeps when it is embedded.
def ownFields (rules : Rules) (d : Declaration) : List RawField :=
  (fields rules .classType d.body).filter fun field =>
    !rules.embeddedSkipFields.contains field.name

-- What a name stands for as an embedded class: it is declared as a class that is not abstract and
-- keeps fields.
def Embeds (rules : Rules) (index : Index) (schema : Schema) (name : String)
    (c : EmbeddedClass) : Prop :=
  ∃ d, index.get? .classType name = some d ∧ d.isAbstract = false ∧ ownFields rules d ≠ [] ∧
    c = ⟨d.base, (ownFields rules d).map (Field.ofRaw rules schema.knownTypes)⟩

-- The least set of names with the wanted elements of all templates and of each embedded class in it.
inductive Reached (rules : Rules) (index : Index) (schema : Schema) : String → Prop
  | ofTemplate {name element : String} {t : Template} {field : Field} :
      schema.templates.get? name = some t → field ∈ t.fields → field.IsCollectionOf element →
      Wanted rules schema element → Reached rules index schema element
  | ofEmbedded {name element : String} {c : EmbeddedClass} {field : Field} :
      Reached rules index schema name → Embeds rules index schema name c → field ∈ c.fields →
      field.IsCollectionOf element → Wanted rules schema element →
      Reached rules index schema element

theorem Reached.wanted {rules : Rules} {index : Index} {schema : Schema} {name : String}
    (h : Reached rules index schema name) : Wanted rules schema name := by
  cases h with
  | ofTemplate _ _ _ hwanted => exact hwanted
  | ofEmbedded _ _ _ _ hwanted => exact hwanted

theorem category_collection_iff (rules : Rules) (known : KnownTypes) (type : String) :
    (classify rules known type).category = .collection ↔
      ∃ element, (classify rules known type).element = some element := by
  unfold classify classifyTrimmed
  repeat' split
  all_goals simp

variable {rules : Rules} {text : List Char} {index : Index} {schema : Schema} {name : String}

def Search.ofSchema (rules : Rules) (schema : Schema) : Search :=
  ⟨rules, schema.knownTypes, rules.skipTypes⟩

theorem wants_ofSchema_iff :
    (Search.ofSchema rules schema).wants name = true ↔ Wanted rules schema name := by
  simp [Search.ofSchema, Search.wants, KnownTypes.contains, knownTypes, NameSet.contains_domain,
    Wanted, and_assoc]

theorem isCollectionOf_ofRaw_iff {known : KnownTypes} {raw : RawField} {element : String} :
    (Field.ofRaw rules known raw).IsCollectionOf element ↔
      (Field.ofRaw rules known raw).element = some element := by
  refine and_iff_right_of_imp fun h => ?_
  exact (category_collection_iff _ _ _).mpr ⟨element, h⟩

theorem Visit.mem_elements_iff {visit : Visit} {element : String} :
    element ∈ visit.elements ↔
      ∃ other c, visit.embedded? = some (other, c) ∧ element ∈ c.fields.filterMap Field.element := by
  cases visit with
  | undeclared name => simp [elements, embedded?]
  | declared d findings fields =>
      cases fields with
      | nil => simp [elements, embedded?]
      | cons field rest => simp [elements, embedded?]

-- A look-up finds what the name stands for.
theorem embedded?_lookUp_iff {other : String} {c : EmbeddedClass} :
    ((Search.ofSchema rules schema).lookUp index name).embedded? = some (other, c) ↔
      other = name ∧ Embeds rules index schema name c := by
  cases hget : index.get? .classType name with
  | none => simp [Search.lookUp_undeclared hget, Visit.embedded?, Embeds, hget]
  | some d =>
      have hname := (Index.get?_spec hget).2.2
      have hvisit : (Search.ofSchema rules schema).visit d =
          .declared d (fieldFindings rules .classType d.body)
            ((ownFields rules d).map (Field.ofRaw rules schema.knownTypes)) := rfl
      rw [Search.lookUp_declared hget]
      by_cases habstract : d.isAbstract
      · simp [habstract, Visit.embedded?, Embeds, hget]
      · by_cases hfields : ownFields rules d = []
        · simp [habstract, hvisit, Visit.embedded?, hfields, Embeds, hget]
        · simp [habstract, hvisit, Visit.embedded?, hfields, Embeds, hget, hname, @eq_comm _ c,
            @eq_comm _ other]

theorem mem_elements_lookUp_iff {element : String} :
    element ∈ ((Search.ofSchema rules schema).lookUp index name).elements ↔
      ∃ c field, Embeds rules index schema name c ∧ field ∈ c.fields ∧
        field.IsCollectionOf element := by
  simp only [Visit.mem_elements_iff, embedded?_lookUp_iff, List.mem_filterMap]
  constructor
  · rintro ⟨other, c, ⟨rfl, hembeds⟩, field, hfield, helement⟩
    obtain ⟨d, -, -, -, rfl⟩ := id hembeds
    obtain ⟨raw, -, rfl⟩ := List.mem_map.mp hfield
    exact ⟨_, _, hembeds, hfield, isCollectionOf_ofRaw_iff.mpr helement⟩
  · rintro ⟨c, field, hembeds, hfield, -, helement⟩
    exact ⟨name, c, ⟨rfl, hembeds⟩, field, hfield, helement⟩

-- The elements of the collections of all templates.
def templateElements (schema : Schema) : List String :=
  schema.templates.values.flatMap fun template => template.fields.filterMap Field.element

-- The wanted ones among them.
def firstWork (rules : Rules) (schema : Schema) : NameSet :=
  .ofNames ((templateElements schema).filter (Search.ofSchema rules schema).wants)

theorem contains_firstWork_iff {element : String} :
    (firstWork rules (ofDump rules text)).contains element = true ↔
      (∃ name t field, (ofDump rules text).templates.get? name = some t ∧ field ∈ t.fields ∧
        field.IsCollectionOf element) ∧ Wanted rules (ofDump rules text) element := by
  rw [firstWork, NameSet.contains_ofNames_iff, List.mem_filter, wants_ofSchema_iff]
  refine and_congr_left fun _ => ?_
  simp only [templateElements, NameMap.values, List.mem_flatMap, List.mem_map, List.mem_filterMap,
    Prod.exists, ← NameMap.get?_eq_some_iff]
  constructor
  · rintro ⟨t, ⟨name, t, ht, rfl⟩, field, hfield, helement⟩
    obtain ⟨d, -, -, htemplate⟩ := template_eq_some_iff.mp ht
    obtain ⟨raw, -, rfl⟩ := List.mem_map.mp (htemplate ▸ hfield)
    exact ⟨name, t, _, ht, hfield, isCollectionOf_ofRaw_iff.mpr helement⟩
  · rintro ⟨name, t, field, ht, hfield, -, helement⟩
    exact ⟨t, ⟨name, t, ht, rfl⟩, field, hfield, helement⟩

theorem ofText_visits (rules : Rules) (text : List Char) :
    (Build.ofText rules text).visits =
      (Search.ofSchema rules (ofDump rules text)).visits ((Index.scan text).ofKind .classType) []
        (firstWork rules (ofDump rules text)) := by
  rw [firstWork, templateElements, Search.ofSchema, ofDump_templates, ofDump_knownTypes]
  rfl

theorem reaches_ofSchema_iff :
    (Search.ofSchema rules (ofDump rules text)).Reaches (Index.scan text)
        (firstWork rules (ofDump rules text)) name ↔
      Reached rules (Index.scan text) (ofDump rules text) name := by
  constructor
  · intro h
    induction h with
    | work hwork =>
        obtain ⟨⟨_, t, field, ht, hfield, helement⟩, hwanted⟩ := contains_firstWork_iff.mp hwork
        exact .ofTemplate ht hfield helement hwanted
    | element _ hmem hwants ih =>
        obtain ⟨c, field, hembeds, hfield, helement⟩ := mem_elements_lookUp_iff.mp hmem
        exact .ofEmbedded ih hembeds hfield helement (wants_ofSchema_iff.mp hwants)
  · intro h
    induction h with
    | ofTemplate ht hfield helement hwanted =>
        exact .work (contains_firstWork_iff.mpr ⟨⟨_, _, _, ht, hfield, helement⟩, hwanted⟩)
    | ofEmbedded _ hembeds hfield helement hwanted ih =>
        exact .element ih (mem_elements_lookUp_iff.mpr ⟨_, _, hembeds, hfield, helement⟩)
          (wants_ofSchema_iff.mpr hwanted)

-- The search of a build looks up each name that can be reached, and each once.
theorem exists_visited (rules : Rules) (text : List Char) :
    ∃ names : List String, names.Nodup ∧
      (∀ name, name ∈ names ↔ Reached rules (Index.scan text) (ofDump rules text) name) ∧
      (Build.ofText rules text).visits =
        names.map ((Search.ofSchema rules (ofDump rules text)).lookUp (Index.scan text)) := by
  obtain ⟨names, hvisits, hexplores⟩ :=
    Search.visits_explores (Search.ofSchema rules (ofDump rules text))
      (Search.ready_start (Index.scan text) (firstWork rules (ofDump rules text)))
  refine ⟨names, hexplores.nodup, fun name => ?_, (ofText_visits rules text).trans hvisits⟩
  rw [hexplores.mem_iff, reaches_ofSchema_iff]

theorem embedded_eq_some_iff {c : EmbeddedClass} :
    (ofDump rules text).embedded.get? name = some c ↔
      Reached rules (Index.scan text) (ofDump rules text) name ∧
        Embeds rules (Index.scan text) (ofDump rules text) name c := by
  obtain ⟨names, hnodup, hreached, hvisits⟩ := exists_visited rules text
  have hembedded : (ofDump rules text).embedded =
      .ofList ((Build.ofText rules text).visits.filterMap Visit.embedded?) := rfl
  have hdistinct : (((Build.ofText rules text).visits.filterMap Visit.embedded?).map
      Prod.fst).Nodup := by
    rw [hvisits, List.filterMap_map, List.Nodup, List.pairwise_map, List.pairwise_filterMap]
    refine hnodup.imp ?_
    rintro a b hne ⟨x, c⟩ hx ⟨y, e⟩ hy
    rw [(embedded?_lookUp_iff.mp hx).1, (embedded?_lookUp_iff.mp hy).1]
    exact hne
  rw [hembedded, NameMap.get?_ofList_eq_some_iff hdistinct, hvisits]
  simp only [List.mem_filterMap, List.mem_map]
  constructor
  · rintro ⟨visit, ⟨other, hother, rfl⟩, hvisit⟩
    obtain ⟨rfl, hembeds⟩ := embedded?_lookUp_iff.mp hvisit
    exact ⟨(hreached _).mp hother, hembeds⟩
  · rintro ⟨hname, hembeds⟩
    exact ⟨_, ⟨name, (hreached name).mpr hname, rfl⟩, embedded?_lookUp_iff.mpr ⟨rfl, hembeds⟩⟩

-- The search for embedded classes ends after looking up each name that can be reached once, and finds
-- what those that stand for embedded classes stand for.
theorem embedded_leastFixedPoint (rules : Rules) (text : List Char) :
    ((Build.ofText rules text).visits.map Visit.name).Nodup ∧
      (∀ name, name ∈ (Build.ofText rules text).visits.map Visit.name ↔
        Reached rules (Index.scan text) (ofDump rules text) name) ∧
      ∀ name c, (ofDump rules text).embedded.get? name = some c ↔
        Reached rules (Index.scan text) (ofDump rules text) name ∧
          Embeds rules (Index.scan text) (ofDump rules text) name c := by
  obtain ⟨names, hnodup, hreached, hvisits⟩ := exists_visited rules text
  have hnames : (Build.ofText rules text).visits.map Visit.name = names := by
    rw [hvisits, List.map_map]
    exact (List.map_congr_left fun name _ => Search.name_lookUp _ _ name).trans (List.map_id names)
  rw [hnames]
  exact ⟨hnodup, hreached, fun name c => embedded_eq_some_iff⟩

end TypeAtlas.Schema
