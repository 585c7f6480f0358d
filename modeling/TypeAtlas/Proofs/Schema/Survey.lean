import TypeAtlas.Proofs.Dump.Index
import TypeAtlas.Proofs.NameMap
import TypeAtlas.Schema.Survey

namespace TypeAtlas

theorem NameSet.domain_map {α β : Type} (f : String → α → β) (map : NameMap α) :
    domain (map.map f) = domain map :=
  NameMap.ext (by simp [domain, NameMap.map])

namespace Schema

open Dump

def knownTypes (schema : Schema) : KnownTypes :=
  ⟨.domain schema.enums, .domain schema.structs, .domain schema.templates⟩

variable {rules : Rules} {text : List Char} {name : String}

theorem templateMap_names_nodup (rules : Rules) (text : List Char) :
    (((Survey.ofText rules text).templates.map fun (d, flattening) =>
      (d.name, d, flattening)).map Prod.fst).Nodup := by
  simp only [Survey.ofText, List.map_map, Function.comp_def]
  exact (Index.names_ofKind_nodup (Index.scan_distinct text) .classType).sublist
    (List.filter_sublist.map _)

-- The templates before their fields are classified.
theorem templateMap_eq_some_iff {d : Declaration} {flattening : Flattening} :
    (Survey.ofText rules text).templateMap.get? name = some (d, flattening) ↔
      (Index.scan text).get? .classType name = some d ∧ rules.isTemplateName name = true ∧
        flattening = flatten rules (Index.scan text) name := by
  have hdistinct := Index.scan_distinct text
  rw [Survey.templateMap, NameMap.get?_ofList_eq_some_iff (templateMap_names_nodup rules text),
    Index.get?_eq_some_iff hdistinct]
  simp only [Survey.ofText, List.map_map, List.mem_map, List.mem_filter, Function.comp_apply,
    Prod.mk.injEq, Index.mem_ofKind_iff]
  constructor
  · rintro ⟨d, ⟨⟨hmem, hkind⟩, htemplate⟩, rfl, rfl, rfl⟩
    exact ⟨⟨hmem, hkind, rfl⟩, htemplate, rfl⟩
  · rintro ⟨⟨hmem, hkind, rfl⟩, htemplate, rfl⟩
    exact ⟨d, ⟨⟨hmem, hkind⟩, htemplate⟩, rfl, rfl, rfl⟩

-- Fields are classified by the names that the finished schema knows.
theorem ofDump_knownTypes (rules : Rules) (text : List Char) :
    (ofDump rules text).knownTypes =
      ⟨.domain (Survey.ofText rules text).enumMap, .domain (Survey.ofText rules text).structFields,
        .domain (Survey.ofText rules text).templateMap⟩ := by
  simp only [knownTypes, ofDump, Build.schema, Build.ofText, NameSet.domain_map]

theorem ofDump_templates (rules : Rules) (text : List Char) :
    (ofDump rules text).templates = (Survey.ofText rules text).templateMap.map
      fun _ (d, flattening) => ⟨d.base, d.isAbstract,
        flattening.fields.map (Field.ofRaw rules (ofDump rules text).knownTypes)⟩ := by
  rw [ofDump_knownTypes]
  rfl

-- A template is a class by whose name the rules know it.
theorem template_eq_some_iff {t : Template} :
    (ofDump rules text).templates.get? name = some t ↔
      ∃ d, (Index.scan text).get? .classType name = some d ∧ rules.isTemplateName name = true ∧
        t = ⟨d.base, d.isAbstract, (collectFields rules (Index.scan text) name).map
          (Field.ofRaw rules (ofDump rules text).knownTypes)⟩ := by
  rw [ofDump_templates, NameMap.get?_map, Option.map_eq_some_iff]
  simp only [Prod.exists, templateMap_eq_some_iff]
  constructor
  · rintro ⟨d, flattening, ⟨hd, htemplate, rfl⟩, rfl⟩
    exact ⟨d, hd, htemplate, rfl⟩
  · rintro ⟨d, hd, htemplate, rfl⟩
    exact ⟨d, _, ⟨hd, htemplate, rfl⟩, rfl⟩

theorem enum_eq_some_iff {e : Enum} :
    (ofDump rules text).enums.get? name = some e ↔
      ∃ d, (Index.scan text).get? .enumType name = some d ∧ Enum.read? d.base d.body = some e := by
  have hmap : (ofDump rules text).enums =
      .ofList (((Index.scan text).ofKind .enumType).filterMap fun d =>
        (Enum.read? d.base d.body).map fun e => (d.name, e)) := by
    simp only [ofDump, Build.schema, Build.ofText, Survey.enumMap, Survey.ofText,
      List.filterMap_map]
    rfl
  rw [hmap]
  exact Index.get?_ofList_ofKind (Index.scan_distinct text) .enumType _

-- The structs before their fields are classified.
theorem structFields_eq_some_iff {raw : List RawField} :
    (Survey.ofText rules text).structFields.get? name = some raw ↔
      ∃ d, (Index.scan text).get? .structType name = some d ∧
        fields rules .structType d.body = raw ∧ raw ≠ [] := by
  have hmap : (Survey.ofText rules text).structFields =
      .ofList (((Index.scan text).ofKind .structType).filterMap fun d =>
        (if (fields rules .structType d.body).isEmpty then none
          else some (fields rules .structType d.body)).map fun raw => (d.name, raw)) := by
    simp only [Survey.structFields, Survey.ofText, List.filterMap_map, apply_ite (Option.map _)]
    rfl
  rw [hmap, Index.get?_ofList_ofKind (Index.scan_distinct text) .structType]
  refine exists_congr fun d => and_congr_right fun _ => ?_
  by_cases hempty : fields rules .structType d.body = []
  · simp [hempty, eq_comm]
  · have hne : (fields rules .structType d.body).isEmpty = false := by simpa using hempty
    rw [hne, if_neg Bool.false_ne_true, Option.some.injEq]
    exact ⟨fun h => ⟨h, h ▸ hempty⟩, And.left⟩

theorem struct_eq_some_iff {s : Struct} :
    (ofDump rules text).structs.get? name = some s ↔
      ∃ d, (Index.scan text).get? .structType name = some d ∧
        fields rules .structType d.body ≠ [] ∧
        s = ⟨structSize (fields rules .structType d.body),
          (fields rules .structType d.body).map
            (Field.ofRaw rules (ofDump rules text).knownTypes)⟩ := by
  have hmap : (ofDump rules text).structs = (Survey.ofText rules text).structFields.map
      fun _ raw => ⟨structSize raw, raw.map (Field.ofRaw rules (ofDump rules text).knownTypes)⟩ := by
    rw [ofDump_knownTypes]
    rfl
  rw [hmap, NameMap.get?_map, Option.map_eq_some_iff]
  simp only [structFields_eq_some_iff]
  constructor
  · rintro ⟨raw, ⟨d, hd, rfl, hne⟩, rfl⟩
    exact ⟨d, hd, hne, rfl⟩
  · rintro ⟨d, hd, hne, rfl⟩
    exact ⟨_, ⟨d, hd, rfl, hne⟩, rfl⟩

theorem inheritance_eq_some_iff {chain : List String} :
    (ofDump rules text).inheritance.get? name = some chain ↔
      (ofDump rules text).templates.contains name = true ∧
        chain = (ancestry (ofDump rules text).templates name).steps ∧ 2 ≤ chain.length := by
  have hmap : (ofDump rules text).inheritance =
      (((ofDump rules text).templates.map fun name _ =>
        ancestry (ofDump rules text).templates name).map fun _ walk => walk.steps).filter
          fun _ chain => 2 ≤ chain.length := rfl
  rw [hmap, NameMap.get?_filter_eq_some_iff, NameMap.get?_map, NameMap.get?_map,
    NameMap.contains_iff]
  simp only [Option.map_map, Option.map_eq_some_iff, Function.comp_apply, decide_eq_true_eq]
  constructor
  · rintro ⟨⟨t, ht, rfl⟩, hlength⟩
    exact ⟨⟨t, ht⟩, rfl, hlength⟩
  · rintro ⟨⟨t, ht⟩, rfl, hlength⟩
    exact ⟨⟨t, ht, rfl⟩, hlength⟩

end Schema

end TypeAtlas
