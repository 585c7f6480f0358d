import TypeAtlas.Config.File
import TypeAtlas.Proofs.Files.Tree
import TypeAtlas.Proofs.Schema.Form

namespace TypeAtlas.Config

open Json
open Schema (Written apart_of_into)

-- A list of texts stands for the set of those that it has, in whatever order and however often.
def NamesForm (set : NameSet) (node : Node) : Prop :=
  ∃ names, ListForm (Written .str) names node ∧ ∀ name, name ∈ set.names ↔ name ∈ names

-- Any number is a ratio, by the floating-point number that it stands for.
def RatioForm (x : Float) (node : Node) : Prop :=
  ∃ numeral : Numeral, node = .num numeral ∧
    ((∃ n, numeral.value? = some (.whole n) ∧ x = Reader.floatOfWhole n) ∨
      numeral.value? = some (.float x))

-- A count stands as digits without sign, point or exponent.
def CountForm (n : Nat) (node : Node) : Prop :=
  ∃ digits, node = .num ⟨false, digits, [], none⟩ ∧ Text.decimalNumber? digits = some n ∧
    n < UInt64.size

-- The settings of the rules that a file gives.
structure GivenRules where
  primitiveTypes : Option NameSet := none
  stringTypes : Option NameSet := none
  localizedTextTypes : Option NameSet := none
  externalAssetTypes : Option NameSet := none
  terminalRootTypes : Option NameSet := none
  frameworkTypes : Option NameSet := none
  templateSuffix : Option String := none
  templateExcludedParts : Option (List String) := none
  templateExcludedNames : Option NameSet := none
  generatedFieldStarts : Option (List String) := none
  generatedFieldMarkers : Option (List String) := none
  embeddedSkipFields : Option NameSet := none

structure GivenThresholds where
  coverageWarnRatio : Option Float := none
  namingWarnRatio : Option Float := none
  fieldPassRatio : Option Float := none
  fieldWarnRatio : Option Float := none
  typeCheckSample : Option Nat := none
  garbageFloatMagnitude : Option Float := none
  placeholderNameStart : Option String := none
  ignoredInstanceKeys : Option NameSet := none
  maxDetailLines : Option Nat := none

structure Given where
  rules : Option GivenRules
  validation : Option GivenThresholds

-- The standard rules with the given settings in place of theirs.
def GivenRules.rules (given : GivenRules) : Rules where
  primitiveTypes := given.primitiveTypes.getD Rules.standard.primitiveTypes
  stringTypes := given.stringTypes.getD Rules.standard.stringTypes
  localizedTextTypes := given.localizedTextTypes.getD Rules.standard.localizedTextTypes
  externalAssetTypes := given.externalAssetTypes.getD Rules.standard.externalAssetTypes
  terminalRootTypes := given.terminalRootTypes.getD Rules.standard.terminalRootTypes
  frameworkTypes := given.frameworkTypes.getD Rules.standard.frameworkTypes
  templateSuffix := given.templateSuffix.getD Rules.standard.templateSuffix
  templateExcludedParts := given.templateExcludedParts.getD Rules.standard.templateExcludedParts
  templateExcludedNames := given.templateExcludedNames.getD Rules.standard.templateExcludedNames
  generatedFieldStarts := given.generatedFieldStarts.getD Rules.standard.generatedFieldStarts
  generatedFieldMarkers := given.generatedFieldMarkers.getD Rules.standard.generatedFieldMarkers
  embeddedSkipFields := given.embeddedSkipFields.getD Rules.standard.embeddedSkipFields

def GivenThresholds.thresholds (given : GivenThresholds) : Thresholds where
  coverageWarnRatio := given.coverageWarnRatio.getD Thresholds.standard.coverageWarnRatio
  namingWarnRatio := given.namingWarnRatio.getD Thresholds.standard.namingWarnRatio
  fieldPassRatio := given.fieldPassRatio.getD Thresholds.standard.fieldPassRatio
  fieldWarnRatio := given.fieldWarnRatio.getD Thresholds.standard.fieldWarnRatio
  typeCheckSample := given.typeCheckSample.getD Thresholds.standard.typeCheckSample
  garbageFloatMagnitude := given.garbageFloatMagnitude.getD Thresholds.standard.garbageFloatMagnitude
  placeholderNameStart := given.placeholderNameStart.getD Thresholds.standard.placeholderNameStart
  ignoredInstanceKeys := given.ignoredInstanceKeys.getD Thresholds.standard.ignoredInstanceKeys
  maxDetailLines := given.maxDetailLines.getD Thresholds.standard.maxDetailLines

def Given.config (given : Given) : Config where
  rules := given.rules.elim Rules.standard GivenRules.rules
  validation := given.validation.elim Thresholds.standard GivenThresholds.thresholds

-- A key of an object, which stands there just when there is a value for it.
def asked {α : Type} (key : String) (form : α → Node → Prop) (given : Option α) : Json.Part :=
  ⟨[key], fun node => ∃ value, given = some value ∧ form value node, given = none⟩

def GivenRules.parts (given : GivenRules) : List Json.Part :=
  [asked "primitive_types" NamesForm given.primitiveTypes,
   asked "string_types" NamesForm given.stringTypes,
   asked "localized_text_types" NamesForm given.localizedTextTypes,
   asked "external_asset_types" NamesForm given.externalAssetTypes,
   asked "terminal_root_types" NamesForm given.terminalRootTypes,
   asked "framework_types" NamesForm given.frameworkTypes,
   asked "template_suffix" (Written .str) given.templateSuffix,
   asked "template_excluded_substrings" (ListForm (Written .str)) given.templateExcludedParts,
   asked "template_excluded_names" NamesForm given.templateExcludedNames,
   asked "generated_field_prefixes" (ListForm (Written .str)) given.generatedFieldStarts,
   asked "generated_field_markers" (ListForm (Written .str)) given.generatedFieldMarkers,
   asked "embedded_skip_fields" NamesForm given.embeddedSkipFields]

def GivenThresholds.parts (given : GivenThresholds) : List Json.Part :=
  [asked "coverage_warn_ratio" RatioForm given.coverageWarnRatio,
   asked "naming_warn_ratio" RatioForm given.namingWarnRatio,
   asked "field_pass_ratio" RatioForm given.fieldPassRatio,
   asked "field_warn_ratio" RatioForm given.fieldWarnRatio,
   asked "type_check_sample" CountForm given.typeCheckSample,
   asked "garbage_float_magnitude" RatioForm given.garbageFloatMagnitude,
   asked "placeholder_name_prefix" (Written .str) given.placeholderNameStart,
   asked "ignored_instance_keys" NamesForm given.ignoredInstanceKeys,
   asked "max_detail_lines" CountForm given.maxDetailLines]

def GivenRules.Form (given : GivenRules) : Node → Prop :=
  RecordForm given.parts

def GivenThresholds.Form (given : GivenThresholds) : Node → Prop :=
  RecordForm given.parts

-- The objects that give some settings and no others, among members of any other names.
def Given.Form (given : Given) : Node → Prop :=
  RecordForm [asked "rules" GivenRules.Form given.rules,
    asked "validation" GivenThresholds.Form given.validation]

section

variable {σ α β : Type}

theorem accepts_text : Accepts Reader.str (Written .str) :=
  Schema.accepts_written Reader.str_inverts

theorem accepts_names :
    Accepts (fun node => (Reader.list Reader.str node).map NameSet.ofNames) NamesForm := by
  rintro set node ⟨names, hnames, hset⟩ hwhole
  have hofNames : NameSet.ofNames names = set := by
    refine NameSet.ext_contains fun name => Bool.eq_iff_iff.mpr ?_
    rw [← NameMap.mem_names_iff, ← NameMap.mem_names_iff, NameSet.mem_names_ofNames_iff, hset]
  rw [← hofNames]
  exact congrArg (Except.map NameSet.ofNames) (accepts_text.list names node hnames hwhole)

theorem accepts_ratio : Accepts Reader.float RatioForm := by
  rintro x node ⟨numeral, rfl, ⟨n, hvalue, rfl⟩ | hvalue⟩ -
  · rw [Reader.float, hvalue]
  · rw [Reader.float, hvalue]

theorem accepts_count : Accepts Reader.count CountForm := by
  rintro n node ⟨digits, rfl, hdigits, hsize⟩ -
  have hlow : (0 : Int) ≤ n := Int.natCast_nonneg n
  have hhigh : (n : Int) ≤ UInt64.size - 1 := by omega
  have hwhole : Reader.whole 0 (UInt64.size - 1) (.num ⟨false, digits, [], none⟩) = .ok n := by
    rw [Reader.whole, Numeral.value?_digits hdigits hsize]
    exact if_pos (Bool.and_eq_true_iff.mpr ⟨decide_eq_true hlow, decide_eq_true hhigh⟩)
  rw [Reader.count, hwhole]
  rfl

-- A setting that may be given is read into its place, which keeps what it has if none is given.
theorem fits_asked {fields : List (Json.Field σ)} {parts : List Json.Part} {read : Reader α}
    {form : β → Node → Prop} {f : β → α} (place : Place σ α)
    (haccepts : ∀ value node, form value node → node.Whole → read node = .ok (f value))
    (given : Option β) {key : String} {field : Json.Field σ} {s x : σ}
    (hread : field.read = place.read read) (hnames : field.names = [key])
    (hpresence : field.presence ≠ .required) (hplace : place.set (place.get s) s = s)
    (hrest : Json.Field.Fits fields parts (place.set (given.elim (place.get s) f) s) x) :
    Json.Field.Fits (field :: fields) (asked key form given :: parts) s x := by
  refine .cons hnames ?_ ?_ hrest
  · rintro node ⟨value, rfl, hform⟩ hwhole
    rw [hread, Place.read, haccepts value node hform hwhole]
    rfl
  · rintro rfl
    exact ⟨hpresence, hplace⟩

theorem fits_setting {fields : List (Json.Field σ)} {parts : List Json.Part} {read : Reader α}
    {form : α → Node → Prop} {place : Place σ α} (haccepts : Accepts read form) (given : Option α)
    {key : String} {field : Json.Field σ} {s x : σ} (hread : field.read = place.read read)
    (hnames : field.names = [key]) (hpresence : field.presence ≠ .required)
    (hplace : place.set (place.get s) s = s)
    (hrest : Json.Field.Fits fields parts (place.set (given.getD (place.get s)) s) x) :
    Json.Field.Fits (field :: fields) (asked key form given :: parts) s x := by
  refine fits_asked (f := id) place haccepts given hread hnames hpresence hplace ?_
  have hgiven : given.elim (place.get s) id = given.getD (place.get s) := by cases given <;> rfl
  rwa [hgiven]

end

theorem GivenRules.accepts (given : GivenRules) {node : Node} (hform : given.Form node)
    (hwhole : node.Whole) : readSettings ruleSettings .standard node = .ok given.rules := by
  refine Json.Field.record_of_form (by decide) ?_ ?_ hform hwhole
  · -- no two settings share a place
    simp only [ruleSettings, List.map_cons, List.map_nil, List.pairwise_cons, List.forall_mem_cons,
      List.not_mem_nil, false_implies, implies_true, List.Pairwise.nil, and_true]
    and_intros <;> exact apart_of_into rfl rfl fun _ _ _ => rfl
  · refine fits_setting accepts_names given.primitiveTypes rfl rfl nofun rfl ?_
    refine fits_setting accepts_names given.stringTypes rfl rfl nofun rfl ?_
    refine fits_setting accepts_names given.localizedTextTypes rfl rfl nofun rfl ?_
    refine fits_setting accepts_names given.externalAssetTypes rfl rfl nofun rfl ?_
    refine fits_setting accepts_names given.terminalRootTypes rfl rfl nofun rfl ?_
    refine fits_setting accepts_names given.frameworkTypes rfl rfl nofun rfl ?_
    refine fits_setting accepts_text given.templateSuffix rfl rfl nofun rfl ?_
    refine fits_setting accepts_text.list given.templateExcludedParts rfl rfl nofun rfl ?_
    refine fits_setting accepts_names given.templateExcludedNames rfl rfl nofun rfl ?_
    refine fits_setting accepts_text.list given.generatedFieldStarts rfl rfl nofun rfl ?_
    refine fits_setting accepts_text.list given.generatedFieldMarkers rfl rfl nofun rfl ?_
    exact fits_setting accepts_names given.embeddedSkipFields rfl rfl nofun rfl .nil

theorem GivenThresholds.accepts (given : GivenThresholds) {node : Node} (hform : given.Form node)
    (hwhole : node.Whole) :
    readSettings thresholdSettings .standard node = .ok given.thresholds := by
  refine Json.Field.record_of_form (by decide) ?_ ?_ hform hwhole
  · simp only [thresholdSettings, List.map_cons, List.map_nil, List.pairwise_cons,
      List.forall_mem_cons, List.not_mem_nil, false_implies, implies_true, List.Pairwise.nil,
      and_true]
    and_intros <;> exact apart_of_into rfl rfl fun _ _ _ => rfl
  · refine fits_setting accepts_ratio given.coverageWarnRatio rfl rfl nofun rfl ?_
    refine fits_setting accepts_ratio given.namingWarnRatio rfl rfl nofun rfl ?_
    refine fits_setting accepts_ratio given.fieldPassRatio rfl rfl nofun rfl ?_
    refine fits_setting accepts_ratio given.fieldWarnRatio rfl rfl nofun rfl ?_
    refine fits_setting accepts_count given.typeCheckSample rfl rfl nofun rfl ?_
    refine fits_setting accepts_ratio given.garbageFloatMagnitude rfl rfl nofun rfl ?_
    refine fits_setting accepts_text given.placeholderNameStart rfl rfl nofun rfl ?_
    refine fits_setting accepts_names given.ignoredInstanceKeys rfl rfl nofun rfl ?_
    exact fits_setting accepts_count given.maxDetailLines rfl rfl nofun rfl .nil

theorem Given.accepts (given : Given) {node : Node} (hform : given.Form node)
    (hwhole : node.Whole) : read node = .ok given.config := by
  refine Json.Field.record_of_form (by decide) ?_ ?_ hform hwhole
  · exact List.pairwise_pair.mpr (apart_of_into rfl rfl fun _ _ _ => rfl)
  · refine fits_asked ⟨(·.rules), fun v c => { c with rules := v }⟩
      (fun rules _ => rules.accepts) given.rules rfl rfl nofun rfl ?_
    exact fits_asked ⟨(·.validation), fun v c => { c with validation := v }⟩
      (fun thresholds _ => thresholds.accepts) given.validation rfl rfl nofun rfl .nil

-- The text is read as the configuration, and so is every JSON file that holds it.
def LoadsFrom (config : Config) (text : List Char) : Prop :=
  readText text = .ok config ∧
    ∀ [YamlReader] (path : String) (tree : FileTree), Format.ofPath? path = some .json →
      (FileAccess.readText path : StateM FileTree _) tree = (.ok text, tree) →
      (load (some path) : StateM FileTree _) tree = (.ok config, tree)

theorem loadsFrom_of_read {given : Given} {node : Node} (hform : given.Form node)
    {text : List Char} (htext : Document.read text = ⟨node, true⟩) : given.config.LoadsFrom text := by
  have hread : readText text = .ok given.config := by
    rw [readText, htext, Document.decode, given.accepts hform (whole_of_read htext)]
    rfl
  refine ⟨hread, ?_⟩
  intro _ path tree hformat hfile
  simp only [load, loadFile, hformat, bind, StateT.bind, hfile, ofText, hread]
  rfl

theorem namesForm_ofNames (names : List String) :
    NamesForm (.ofNames names) (Value.names names).node := by
  have hnames : ListForm (Written .str) names (Value.names names).node :=
    Schema.listForm_value (Schema.written_value Value.str) names
  exact ⟨names, hnames, fun _ => NameSet.mem_names_ofNames_iff⟩

-- An object gives some settings, in any order and among members that are none, and is read as the
-- standard configuration with just those settings replaced. A set is replaced as a whole, by the names
-- that a list has, in their order and each once.
theorem load_of_given :
    (∀ names, NamesForm (.ofNames names) (Value.names names).node ∧
      (NameSet.ofNames names).names.Pairwise (· < ·) ∧
      ∀ name, name ∈ (NameSet.ofNames names).names ↔ name ∈ names) ∧
    ∀ (given : Given) (node : Node), given.Form node →
      (∀ before text after, Blank before → Spells text node → Blank after →
        given.config.LoadsFrom (before ++ text ++ after)) ∧
      ∀ text, Document.read text = ⟨node, true⟩ → given.config.LoadsFrom text := by
  refine ⟨?_, ?_⟩
  · intro names
    have hrising : (NameSet.ofNames names).names.Pairwise (· < ·) :=
      List.pairwise_map.mpr (NameSet.ofNames names).rising
    exact ⟨namesForm_ofNames names, hrising, fun _ => NameSet.mem_names_ofNames_iff⟩
  · intro given node hform
    refine ⟨?_, fun text htext => loadsFrom_of_read hform htext⟩
    intro before text after hbefore htext hafter
    exact loadsFrom_of_read hform (read_of_spells htext hbefore hafter)

def tuned : Given where
  rules := some
    { stringTypes := some (.ofNames ["text", "String", "text"]), templateSuffix := some "Def" }
  validation := some
    { coverageWarnRatio := some (Reader.floatOfWhole 1), maxDetailLines := some 3 }

-- Members in another order, unknown ones on two levels, one of them with the name of a setting that
-- belongs elsewhere, and a name twice in a list.
def tunedObject : Value :=
  .obj [("theme", .arr [.null]),
    ("validation", .obj [("template_suffix", .whole 7), ("max_detail_lines", .whole 3),
      ("coverage_warn_ratio", .whole 1)]),
    ("rules", .obj [("template_suffix", .str "Def"),
      ("string_types", .names ["text", "String", "text"])])]

theorem tunedObject_form : tuned.Form tunedObject.node := by
  have hrules : GivenRules.Form
      { stringTypes := some (.ofNames ["text", "String", "text"]), templateSuffix := some "Def" }
      (Value.obj [("template_suffix", .str "Def"),
        ("string_types", .names ["text", "String", "text"])]).node :=
    recordForm_reverse
      [("string_types", .names ["text", "String", "text"]), ("template_suffix", .str "Def")] []
      (.lacking rfl <| .given (.head _) ⟨_, rfl, namesForm_ofNames _⟩ <| .lacking rfl <|
        .lacking rfl <| .lacking rfl <| .lacking rfl <| .given (.head _) ⟨_, rfl, rfl⟩ <|
        .lacking rfl <| .lacking rfl <| .lacking rfl <| .lacking rfl <| .lacking rfl .nil)
      nofun
  have hthresholds : GivenThresholds.Form
      { coverageWarnRatio := some (Reader.floatOfWhole 1), maxDetailLines := some 3 }
      (Value.obj [("template_suffix", .whole 7), ("max_detail_lines", .whole 3),
        ("coverage_warn_ratio", .whole 1)]).node :=
    recordForm_reverse
      [("coverage_warn_ratio", .whole 1), ("max_detail_lines", .whole 3)]
      [("template_suffix", .whole 7)]
      (.given (.head _) ⟨_, rfl, _, rfl, .inl ⟨1, rfl, rfl⟩⟩ <| .lacking rfl <| .lacking rfl <|
        .lacking rfl <| .lacking rfl <| .lacking rfl <| .lacking rfl <| .lacking rfl <|
        .given (.head _) ⟨_, rfl, ['3'], rfl, rfl, by decide⟩ .nil)
      (by decide)
  exact recordForm_reverse
    [("rules", .obj [("template_suffix", .str "Def"),
        ("string_types", .names ["text", "String", "text"])]),
      ("validation", .obj [("template_suffix", .whole 7), ("max_detail_lines", .whole 3),
        ("coverage_warn_ratio", .whole 1)])]
    [("theme", .arr [.null])]
    (.given (.head _) ⟨_, rfl, hrules⟩ <| .given (.head _) ⟨_, rfl, hthresholds⟩ .nil)
    (by decide)

theorem load_of_given_tuned :
    tuned.Form tunedObject.node ∧
      Spells (tunedObject.write .indented 0) tunedObject.node ∧
      tuned.config.LoadsFrom (['\n'] ++ tunedObject.write .indented 0 ++ []) ∧
      Document.read tunedObject.pretty.toList = ⟨tunedObject.node, true⟩ ∧
      tuned.config.LoadsFrom tunedObject.pretty.toList := by
  have hspells := spells_write Layout.indented_isBlank 0 tunedObject rfl
  have hread := read_pretty tunedObject rfl
  obtain ⟨hspelled, hclean⟩ := load_of_given.2 tuned tunedObject.node tunedObject_form
  have hblank : Blank ['\n'] := List.forall_mem_singleton.mpr rfl
  exact ⟨tunedObject_form, hspells, hspelled _ _ [] hblank hspells blank_nil, hread,
    hclean _ hread⟩

end TypeAtlas.Config
