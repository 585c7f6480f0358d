import TypeAtlas.Rules
import TypeAtlas.Thresholds

namespace TypeAtlas

structure Config where
  rules : Rules
  validation : Thresholds

def Config.standard : Config :=
  ⟨.standard, .standard⟩

namespace Config

-- A part of a `σ`.
structure Place (σ α : Type) where
  get : σ → α
  set : α → σ → σ

-- A part of a `σ` by the kind of its values.
inductive Slot (σ : Type)
  | names (place : Place σ NameSet)
  | texts (place : Place σ (List String))
  | text (place : Place σ String)
  | ratio (place : Place σ Float)
  | count (place : Place σ Nat)

structure Setting (σ : Type) where
  key : String
  slot : Slot σ

-- All formats that settings are read from and written in share these tables.
def ruleSettings : List (Setting Rules) :=
  [⟨"primitive_types", .names ⟨(·.primitiveTypes), fun v r => { r with primitiveTypes := v }⟩⟩,
   ⟨"string_types", .names ⟨(·.stringTypes), fun v r => { r with stringTypes := v }⟩⟩,
   ⟨"localized_text_types",
    .names ⟨(·.localizedTextTypes), fun v r => { r with localizedTextTypes := v }⟩⟩,
   ⟨"external_asset_types",
    .names ⟨(·.externalAssetTypes), fun v r => { r with externalAssetTypes := v }⟩⟩,
   ⟨"terminal_root_types",
    .names ⟨(·.terminalRootTypes), fun v r => { r with terminalRootTypes := v }⟩⟩,
   ⟨"framework_types", .names ⟨(·.frameworkTypes), fun v r => { r with frameworkTypes := v }⟩⟩,
   ⟨"template_suffix", .text ⟨(·.templateSuffix), fun v r => { r with templateSuffix := v }⟩⟩,
   ⟨"template_excluded_substrings",
    .texts ⟨(·.templateExcludedParts), fun v r => { r with templateExcludedParts := v }⟩⟩,
   ⟨"template_excluded_names",
    .names ⟨(·.templateExcludedNames), fun v r => { r with templateExcludedNames := v }⟩⟩,
   ⟨"generated_field_prefixes",
    .texts ⟨(·.generatedFieldStarts), fun v r => { r with generatedFieldStarts := v }⟩⟩,
   ⟨"generated_field_markers",
    .texts ⟨(·.generatedFieldMarkers), fun v r => { r with generatedFieldMarkers := v }⟩⟩,
   ⟨"embedded_skip_fields",
    .names ⟨(·.embeddedSkipFields), fun v r => { r with embeddedSkipFields := v }⟩⟩]

def thresholdSettings : List (Setting Thresholds) :=
  [⟨"coverage_warn_ratio",
    .ratio ⟨(·.coverageWarnRatio), fun v t => { t with coverageWarnRatio := v }⟩⟩,
   ⟨"naming_warn_ratio",
    .ratio ⟨(·.namingWarnRatio), fun v t => { t with namingWarnRatio := v }⟩⟩,
   ⟨"field_pass_ratio", .ratio ⟨(·.fieldPassRatio), fun v t => { t with fieldPassRatio := v }⟩⟩,
   ⟨"field_warn_ratio", .ratio ⟨(·.fieldWarnRatio), fun v t => { t with fieldWarnRatio := v }⟩⟩,
   ⟨"type_check_sample",
    .count ⟨(·.typeCheckSample), fun v t => { t with typeCheckSample := v }⟩⟩,
   ⟨"garbage_float_magnitude",
    .ratio ⟨(·.garbageFloatMagnitude), fun v t => { t with garbageFloatMagnitude := v }⟩⟩,
   ⟨"placeholder_name_prefix",
    .text ⟨(·.placeholderNameStart), fun v t => { t with placeholderNameStart := v }⟩⟩,
   ⟨"ignored_instance_keys",
    .names ⟨(·.ignoredInstanceKeys), fun v t => { t with ignoredInstanceKeys := v }⟩⟩,
   ⟨"max_detail_lines", .count ⟨(·.maxDetailLines), fun v t => { t with maxDetailLines := v }⟩⟩]

end Config

end TypeAtlas
