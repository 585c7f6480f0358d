import Mathlib.Data.Finset.Card
import Mathlib.Data.Finset.Filter
import TypeAtlas.Proofs.NameMap
import TypeAtlas.Validation.Check

namespace TypeAtlas.Validation

open Json (Value)
open Schema (Field Template)

-- A check that finds fault with nothing.
def Check.Good (check : Check) : Prop :=
  check.level ≠ .fail ∧ check.level ≠ .warn

theorem good_info {check : Check} (h : check.level = .info) : check.Good := by
  rw [Check.Good, h]
  decide

theorem good_pass {check : Check} (h : check.level = .pass) : check.Good := by
  rw [Check.Good, h]
  decide

-- A measure with two limits passes by the first one only.
theorem good_graded {check : Check} {p w : Prop} [Decidable p] [Decidable w]
    (h : check.level = if p then .pass else if w then .warn else .fail) : check.Good ↔ p := by
  rw [Check.Good, h]
  by_cases hp : p
  · simp [hp]
  · by_cases hw : w
    · simp [hp, hw]
    · simp [hp, hw]

theorem good_missing (names : List String) : ∀ check ∈ names.map Check.missing, check.Good := by
  intro check hcheck
  obtain ⟨name, -, rfl⟩ := List.mem_map.mp hcheck
  exact good_info rfl

-- An object with a name of its own.
def Named (thresholds : Thresholds) (item : Value) : Prop :=
  ∃ members name, item = .obj members ∧ item.get? "name" = some (.str name) ∧ name ≠ "" ∧
    ¬ thresholds.placeholderNameStart.toList <+: name.toList

-- The different names of the fields that are plain keys of instances.
def simpleFieldNames (template : Template) : Finset String :=
  ((template.fields.filter fun f => f.category.isSimple).map Field.name).toFinset

-- Those among them that are keys of an instance, keys that are no fields aside.
def presentNames (thresholds : Thresholds) (template : Template) (item : Value) : Finset String :=
  (simpleFieldNames template).filter fun name =>
    thresholds.ignoredInstanceKeys.contains name = false ∧ (item.get? name).isSome

-- Whether an instance has enough of the simple fields of its template.
def HasFields (thresholds : Thresholds) (template : Template) (item : Value) : Prop :=
  simpleFieldNames template = ∅ ∨
    share (presentNames thresholds template item).card (simpleFieldNames template).card ≥
      thresholds.fieldPassRatio

variable {schema : Schema} {files : Files} {thresholds : Thresholds} {template : Template}
  {items : List Value} {name : String}

theorem checkCoverage_good :
    (∀ check ∈ checkCoverage schema files thresholds, check.Good) ↔
      ∀ name ∈ schema.concrete.names, files.contains name = true := by
  rw [checkCoverage, List.forall_mem_cons, good_graded rfl, and_iff_left (good_missing _)]
  simp

theorem isNamed_iff {item : Value} : isNamed thresholds item = true ↔ Named thresholds item := by
  cases item with
  | obj members =>
      cases hget : (Value.obj members).get? "name" with
      | none => simp [isNamed, nameOf?, Named, hget]
      | some value =>
          cases value with
          | str name =>
              by_cases hempty : name = ""
              · simp [isNamed, nameOf?, Named, hget, hempty]
              · simp [isNamed, nameOf?, Named, hget, hempty, Text.startsWith,
                  ← Bool.not_eq_true]
          | _ => simp [isNamed, nameOf?, Named, hget]
  | _ => simp [isNamed, nameOf?, Named, Value.get?]

theorem checkName_good {file : InstanceFile} :
    (checkName thresholds name file).Good ↔
      ∃ items, file = .instances items ∧ items ≠ [] ∧ ∀ item ∈ items, Named thresholds item := by
  cases file with
  | unreadable => simp [checkName, Check.Good, Check.level]
  | notAList => simp [checkName, Check.Good, Check.level]
  | instances items =>
      cases items with
      | nil => simp [checkName, Check.Good, Check.level]
      | cons first rest =>
          have hgood : (checkName thresholds name (.instances (first :: rest))).Good ↔
              (first :: rest).countP (isNamed thresholds) = (first :: rest).length :=
            good_graded rfl
          rw [hgood, List.countP_eq_length]
          simp [isNamed_iff]

theorem checkNames_good :
    (∀ check ∈ checkNames files thresholds, check.Good) ↔
      ∀ name file, files.get? name = some file →
        ∃ items, file = .instances items ∧ items ≠ [] ∧ ∀ item ∈ items, Named thresholds item := by
  simp only [checkNames, List.forall_mem_map, NameMap.get?_eq_some_iff, checkName_good, Prod.forall]

theorem mem_checkNames {file : InstanceFile} (h : files.get? name = some file) :
    checkName thresholds name file ∈ checkNames files thresholds :=
  List.mem_map.mpr ⟨(name, file), NameMap.get?_eq_some_iff.mp h, rfl⟩

theorem simpleNames_toFinset (template : Template) :
    (simpleNames template).toFinset = simpleFieldNames template := by
  ext name
  simp [simpleNames, simpleFieldNames, NameMap.mem_names_iff, NameSet.contains_ofNames_iff]

theorem simpleNames_nodup (template : Template) : (simpleNames template).Nodup :=
  NameMap.names_nodup _

theorem simpleNames_length (template : Template) :
    (simpleNames template).length = (simpleFieldNames template).card := by
  rw [← simpleNames_toFinset, List.toFinset_card_of_nodup (simpleNames_nodup template)]

theorem simpleNames_isEmpty_iff :
    (simpleNames template).isEmpty = true ↔ simpleFieldNames template = ∅ := by
  rw [← simpleNames_toFinset, List.isEmpty_iff, List.toFinset_eq_empty_iff]

theorem mem_fieldKeys_iff {members : List (String × Value)} :
    name ∈ fieldKeys thresholds members ↔
      thresholds.ignoredInstanceKeys.contains name = false ∧
        ((Value.obj members).get? name).isSome := by
  simp [fieldKeys, Value.get?, and_comm]

-- What is not missing is there.
theorem present_count (thresholds : Thresholds) (template : Template)
    (members : List (String × Value)) :
    (simpleNames template).length - ((simpleNames template).filter fun field =>
        !(fieldKeys thresholds members).contains field).length =
      (presentNames thresholds template (.obj members)).card := by
  have hpresent : ((simpleNames template).filter fun field =>
      (fieldKeys thresholds members).contains field).toFinset =
        presentNames thresholds template (.obj members) := by
    rw [presentNames, ← simpleNames_toFinset, List.toFinset_filter]
    simp only [List.contains_iff_mem, mem_fieldKeys_iff]
  have hcount := (simpleNames template).length_eq_length_filter_add
    fun field => (fieldKeys thresholds members).contains field
  rw [← hpresent, List.toFinset_card_of_nodup ((simpleNames_nodup template).filter _)]
  omega

theorem checkPresence_good {members : List (String × Value)} :
    (∀ check ∈ checkPresence thresholds name template members, check.Good) ↔
      HasFields thresholds template (.obj members) := by
  simp only [checkPresence, present_count]
  simp only [simpleNames_length]
  by_cases hnone : simpleFieldNames template = ∅
  · simp [simpleNames_isEmpty_iff.mpr hnone, HasFields, hnone]
  · rw [if_neg (simpleNames_isEmpty_iff.not.mpr hnone), List.forall_mem_cons, good_graded rfl,
      HasFields, or_iff_right hnone]
    exact and_iff_left fun check hcheck => good_missing _ check (List.mem_ite_nil_left.mp hcheck).2

theorem representative?_cons {first : Value} {rest : List Value} (h : Named thresholds first) :
    representative? (first :: rest) = first.members? := by
  obtain ⟨members, name, rfl, hget, hne, -⟩ := h
  have hname : nameOf? (.obj members) = some name := by
    simp [nameOf?, hget, hne]
  rw [representative?, List.find?_cons_of_pos (by rw [hname]; rfl)]
  rfl

-- Checks made file by file find no fault if they find none with any file.
theorem forall_files {checks : String × InstanceFile → List Check} :
    (∀ check ∈ files.entries.flatMap checks, check.Good) ↔
      ∀ name file, files.get? name = some file → ∀ check ∈ checks (name, file), check.Good := by
  simp only [List.forall_mem_flatMap, Prod.forall, NameMap.get?_eq_some_iff]

theorem InstanceFile.items?_eq_some_iff {file : InstanceFile} :
    file.items? = some items ↔ file = .instances items := by
  cases file <;> simp [items?]

theorem checkFields_good :
    (∀ check ∈ checkFields schema files thresholds, check.Good) ↔
      ∀ name template items members, schema.templates.get? name = some template →
        files.get? name = some (.instances items) → representative? items = some members →
          HasFields thresholds template (.obj members) := by
  rw [checkFields, forall_files]
  constructor
  · intro h name template items members htemplate hfile hmembers
    have hchecks := h name _ hfile
    simp only [htemplate, InstanceFile.items?, Option.bind_some, hmembers] at hchecks
    exact checkPresence_good.mp hchecks
  · intro h name file hfile
    dsimp only
    split
    · rename_i template members htemplate hmembers
      obtain ⟨items, hitems, hmembers⟩ := Option.bind_eq_some_iff.mp hmembers
      obtain rfl := InstanceFile.items?_eq_some_iff.mp hitems
      exact checkPresence_good.mpr (h name template items members htemplate hfile hmembers)
    · exact List.forall_mem_nil _

end TypeAtlas.Validation
