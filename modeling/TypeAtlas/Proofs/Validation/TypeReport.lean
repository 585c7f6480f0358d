import TypeAtlas.Proofs.Text.ByteOrder
import TypeAtlas.Proofs.Validation.Defect
import TypeAtlas.Proofs.Validation.Shape
import TypeAtlas.Schema.Json

namespace TypeAtlas.Validation

open Json (Value)
open Schema (Field Template)

-- What is wrong with a value of a type. A number in place of a float is wrong by its magnitude.
def complaint (type : String) (value : Value) : String :=
  "expected " ++ type ++ ", got " ++
    match float? value, decide (type ∈ floatTypes) with
    | some x, true => Decimal.exponentForm 3 x ++ " (garbage - wrong offset?)"
    | _, _ => kindName value ++ "=" ++ value.compact

-- A value that an instance, the one with the given index in its file, has for a field.
structure Finding where
  index : Nat
  members : List (String × Value)
  field : Field
  value : Value

namespace Finding

-- The value is one that the field cannot have, and the instance is one of those that are looked at.
structure IsDefect (thresholds : Thresholds) (template : Template) (items : List Value)
    (finding : Finding) : Prop where
  sampled : finding.index < thresholds.typeCheckSample
  item : items[finding.index]? = some (.obj finding.members)
  checked : Checked template finding.field
  value : (Value.obj finding.members).get? finding.field.name = some finding.value
  defective : Defective thresholds finding.field.declaredType finding.value

-- The order of instances, and within one of them that of the bytes of field names.
def Before (a b : Finding) : Prop :=
  a.index < b.index ∨
    a.index = b.index ∧ Text.encode a.field.name.toList < Text.encode b.field.name.toList

def record (template : String) (finding : Finding) : Record Level :=
  ⟨.info, "  " ++ template ++ "." ++ finding.field.name ++ "[" ++
    labelOf (.obj finding.members) ++ "]: " ++
    complaint finding.field.declaredType finding.value⟩

end Finding

-- The defects of a file, in order and each once.
structure Findings (thresholds : Thresholds) (template : Template) (items : List Value) where
  list : List Finding
  inOrder : list.Pairwise Finding.Before
  complete : ∀ finding, finding ∈ list ↔ finding.IsDefect thresholds template items

variable {schema : Schema} {files : Files} {thresholds : Thresholds} {template : Template}
  {items : List Value} {name : String}

-- All defects count, and the first of them are listed.
def Findings.records (findings : Findings thresholds template items) (name : String) :
    List (Record Level) :=
  if findings.list = [] then
    if hasData items then [⟨.pass, name ++ ": all values match expected types"⟩] else []
  else
    ⟨.fail, name ++ ": " ++ toString findings.list.length ++ " type errors"⟩ ::
      (findings.list.take thresholds.maxDetailLines).map (Finding.record name) ++
      if thresholds.maxDetailLines < findings.list.length then
        [⟨.info, "  ... and " ++ toString (findings.list.length - thresholds.maxDetailLines) ++
          " more"⟩]
      else []

theorem not_mem_floatTypes {type : String} {shape : Shape} (h : HasShape type shape)
    (hshape : shape ≠ .float) : type ∉ floatTypes := by
  have hunsigned : ∀ entry ∈ unsignedTypes, entry.1 ∉ floatTypes := by decide
  have hsigned : ∀ entry ∈ signedTypes, entry.1 ∉ floatTypes := by decide
  have hbool : ∀ type ∈ boolTypes, type ∉ floatTypes := by decide
  cases h with
  | unsigned hmem => exact hunsigned _ hmem
  | signed hmem => exact hsigned _ hmem
  | float hmem => exact absurd rfl hshape
  | bool hmem => exact hbool _ hmem

theorem mem_floatTypes {type : String} (h : HasShape type .float) : type ∈ floatTypes := by
  cases h with
  | float hmem => exact hmem

theorem message_mismatch {type : String} {value : Value}
    (h : type ∉ floatTypes ∨ float? value = none) :
    (Problem.mismatch type value).message = complaint type value := by
  rw [Problem.message, complaint]
  rcases h with htype | hvalue
  · simp [htype, String.append_assoc]
  · simp [hvalue, String.append_assoc]

-- The text of a problem is settled by the type and the value.
theorem message_of_problem {type : String} {value : Value} {problem : Problem}
    (h : problem? thresholds type value = some problem) :
    problem.message = complaint type value := by
  obtain ⟨shape, hshape, hproblem⟩ := Option.bind_eq_some_iff.mp h
  have htype := ofType?_eq_some_iff.mp hshape
  cases shape with
  | integer low high =>
      have hmismatch : problem = .mismatch type value := by
        cases value with
        | whole n =>
            simp only [problemOfShape?] at hproblem
            split at hproblem
            · cases hproblem
            · exact (Option.some.inj hproblem).symm
        | _ => exact (Option.some.inj hproblem).symm
      rw [hmismatch]
      exact message_mismatch (Or.inl (not_mem_floatTypes htype Shape.noConfusion))
  | float =>
      rw [problemOfShape?] at hproblem
      cases hvalue : float? value with
      | none =>
          rw [hvalue] at hproblem
          cases hproblem
          exact message_mismatch (Or.inr hvalue)
      | some x =>
          rw [hvalue] at hproblem
          dsimp only at hproblem
          split at hproblem
          · cases hproblem
            simp [Problem.message, complaint, hvalue, mem_floatTypes htype, String.append_assoc]
          · cases hproblem
  | bool =>
      have hmismatch : problem = .mismatch type value := by
        cases value with
        | bool b => cases hproblem
        | _ => exact (Option.some.inj hproblem).symm
      rw [hmismatch]
      exact message_mismatch (Or.inl (not_mem_floatTypes htype Shape.noConfusion))

-- The defects of an instance, field by field.
def itemFindings (thresholds : Thresholds) (template : Template) : Value × Nat → List Finding
  | (.obj members, index) => (primitiveFields template).entries.filterMap fun (name, field) =>
    ((Value.obj members).get? name).bind fun value =>
      (problem? thresholds field.declaredType value).map fun _ => ⟨index, members, field, value⟩
  | _ => []

theorem mem_itemFindings_iff {item : Value} {index : Nat} {finding : Finding} :
    finding ∈ itemFindings thresholds template (item, index) ↔
      finding.index = index ∧ item = .obj finding.members ∧ Checked template finding.field ∧
        (Value.obj finding.members).get? finding.field.name = some finding.value ∧
        Defective thresholds finding.field.declaredType finding.value := by
  cases item with
  | obj members =>
      simp only [itemFindings, List.mem_filterMap, Option.bind_eq_some_iff, Option.map_eq_some_iff,
        Prod.exists, ← NameMap.get?_eq_some_iff]
      constructor
      · rintro ⟨name, field, hfield, value, hvalue, problem, hproblem, rfl⟩
        obtain ⟨hchecked, rfl⟩ := primitiveFields_eq_some_iff.mp hfield
        have hdefective : problem? thresholds field.declaredType value ≠ none := by
          rw [hproblem]
          exact Option.some_ne_none _
        exact ⟨rfl, rfl, hchecked, hvalue, problem?_ne_none_iff.mp hdefective⟩
      · obtain ⟨index', members', field, value⟩ := finding
        rintro ⟨rfl, hmembers, hchecked, hvalue, hdefective⟩
        cases hmembers
        obtain ⟨problem, hproblem⟩ :=
          Option.ne_none_iff_exists'.mp (problem?_ne_none_iff.mpr hdefective)
        exact ⟨field.name, field, primitiveFields_eq_some_iff.mpr ⟨hchecked, rfl⟩, value, hvalue,
          problem, hproblem, rfl⟩
  | _ => simp [itemFindings]

theorem name_of_mem_primitiveFields {field : Field}
    (h : (name, field) ∈ (primitiveFields template).entries) : field.name = name :=
  (primitiveFields_eq_some_iff.mp (NameMap.get?_eq_some_iff.mpr h)).2

theorem itemFindings_inOrder (thresholds : Thresholds) (template : Template)
    (entry : Value × Nat) :
    (itemFindings thresholds template entry).Pairwise Finding.Before := by
  obtain ⟨item, index⟩ := entry
  cases item with
  | obj members =>
      refine List.Pairwise.filterMap _ ?_
        (List.Pairwise.and_mem.mp (primitiveFields template).rising)
      rintro ⟨name, field⟩ ⟨name', field'⟩ ⟨hmem, hmem', hlt⟩ finding h finding' h'
      obtain ⟨value, -, hvalue⟩ := Option.bind_eq_some_iff.mp h
      obtain ⟨problem, -, rfl⟩ := Option.map_eq_some_iff.mp hvalue
      obtain ⟨value', -, hvalue'⟩ := Option.bind_eq_some_iff.mp h'
      obtain ⟨problem', -, rfl⟩ := Option.map_eq_some_iff.mp hvalue'
      obtain rfl := name_of_mem_primitiveFields hmem
      obtain rfl := name_of_mem_primitiveFields hmem'
      exact Or.inr ⟨rfl, Text.encode_lt_encode hlt⟩
  | _ => exact List.Pairwise.nil

def fileFindings (thresholds : Thresholds) (template : Template) (items : List Value) :
    List Finding :=
  (items.take thresholds.typeCheckSample).zipIdx.flatMap (itemFindings thresholds template)

theorem fileFindings_inOrder (thresholds : Thresholds) (template : Template)
    (items : List Value) :
    (fileFindings thresholds template items).Pairwise Finding.Before := by
  have hindex : (items.take thresholds.typeCheckSample).zipIdx.Pairwise fun a b => a.2 < b.2 := by
    rw [← List.pairwise_map, List.zipIdx_map_snd]
    exact List.pairwise_lt_range' 1
  rw [fileFindings, List.pairwise_flatMap]
  refine ⟨fun entry _ => itemFindings_inOrder thresholds template entry, hindex.imp ?_⟩
  intro a b hlt finding h finding' h'
  rw [← (mem_itemFindings_iff.mp h).1, ← (mem_itemFindings_iff.mp h').1] at hlt
  exact Or.inl hlt

theorem mem_fileFindings_iff {finding : Finding} :
    finding ∈ fileFindings thresholds template items ↔
      finding.IsDefect thresholds template items := by
  simp only [fileFindings, List.mem_flatMap, Prod.exists, List.mk_mem_zipIdx_iff_getElem?,
    mem_itemFindings_iff, List.getElem?_take, Option.ite_none_right_eq_some]
  constructor
  · rintro ⟨item, index, ⟨hsampled, hitem⟩, rfl, rfl, hchecked, hvalue, hdefective⟩
    exact ⟨hsampled, hitem, hchecked, hvalue, hdefective⟩
  · intro h
    exact ⟨_, _, ⟨h.sampled, h.item⟩, rfl, rfl, h.checked, h.value, h.defective⟩

-- What a check finds of a file that is a list.
def findings (thresholds : Thresholds) (template : Template) (items : List Value) :
    Findings thresholds template items :=
  ⟨fileFindings thresholds template items, fileFindings_inOrder thresholds template items,
    fun _ => mem_fileFindings_iff⟩

theorem map_record_itemDefects (name : String) (entry : Value × Nat) :
    (itemDefects thresholds name (primitiveFields template) entry.1).map
        (fun defect => (Check.defect defect).record) =
      (itemFindings thresholds template entry).map (Finding.record name) := by
  obtain ⟨item, index⟩ := entry
  cases item with
  | obj members =>
      simp only [itemDefects, itemFindings, List.map_filterMap]
      refine List.filterMap_congr ?_
      rintro ⟨field, definition⟩ hmem
      obtain rfl := name_of_mem_primitiveFields hmem
      cases hvalue : (Value.obj members).get? definition.name with
      | none => rfl
      | some value =>
          cases hproblem : problem? thresholds definition.declaredType value with
          | none => simp [hproblem]
          | some problem =>
              simp [hproblem, Check.record, Check.level, Check.message, Defect.message,
                Finding.record, message_of_problem hproblem, String.append_assoc]
  | _ => simp [itemDefects, itemFindings, Value.get?]

theorem map_record_fileDefects (thresholds : Thresholds) (name : String) (template : Template)
    (items : List Value) :
    (fileDefects thresholds name template items).map (fun defect => (Check.defect defect).record) =
      (findings thresholds template items).list.map (Finding.record name) := by
  have hitems : items.take thresholds.typeCheckSample =
      (items.take thresholds.typeCheckSample).zipIdx.map Prod.fst :=
    (List.zipIdx_map_fst 0 _).symm
  rw [fileDefects, hitems, List.flatMap_map, List.map_flatMap]
  refine Eq.trans ?_ List.map_flatMap.symm
  exact List.flatMap_congr fun entry _ => map_record_itemDefects name entry

theorem fileDefects_length (thresholds : Thresholds) (name : String) (template : Template)
    (items : List Value) :
    (fileDefects thresholds name template items).length =
      (findings thresholds template items).list.length := by
  simpa only [List.length_map] using
    congrArg List.length (map_record_fileDefects thresholds name template items)

theorem fileDefects_isEmpty_iff :
    (fileDefects thresholds name template items).isEmpty = true ↔
      (findings thresholds template items).list = [] := by
  rw [List.isEmpty_iff, ← List.length_eq_zero_iff, fileDefects_length, List.length_eq_zero_iff]

theorem map_record_checkItems (thresholds : Thresholds) (name : String) (template : Template)
    (items : List Value) :
    (checkItems thresholds name template items).map Check.record =
      (findings thresholds template items).records name := by
  have hshown := congrArg (List.take thresholds.maxDetailLines)
    (map_record_fileDefects thresholds name template items)
  simp only [← List.map_take] at hshown
  simp only [checkItems, Findings.records, fileDefects_isEmpty_iff, fileDefects_length]
  by_cases hnone : (findings thresholds template items).list = []
  · rw [if_pos hnone, if_pos hnone]
    split <;> rfl
  · rw [if_neg hnone, if_neg hnone, List.cons_append, List.map_cons, List.map_append, List.map_map,
      Function.comp_def, hshown, apply_ite (List.map Check.record)]
    rfl

-- What the checks say of one file, if it is a list and belongs to a template.
def typeRecords (schema : Schema)
    (findings : (template : Template) → (items : List Value) → Findings thresholds template items) :
    String × InstanceFile → List (Record Level)
  | (name, .instances items) =>
    match schema.templates.get? name with
    | some template => (findings template items).records name
    | none => []
  | _ => []

theorem defects_mem_checkItems_iff {other : String} {count : Nat} :
    .defects other count ∈ checkItems thresholds name template items ↔
      other = name ∧ (findings thresholds template items).list ≠ [] ∧
        count = (findings thresholds template items).list.length := by
  simp only [checkItems, fileDefects_isEmpty_iff, fileDefects_length]
  by_cases hnone : (findings thresholds template items).list = []
  · rw [if_pos hnone]
    split <;> simp [hnone]
  · rw [if_neg hnone]
    split <;> simp [hnone, -List.map_take]

theorem map_record_checkTypes (schema : Schema) (files : Files) (thresholds : Thresholds) :
    (checkTypes schema files thresholds).map Check.record =
      files.entries.flatMap (typeRecords schema (findings thresholds)) := by
  rw [checkTypes, List.map_flatMap]
  refine List.flatMap_congr ?_
  rintro ⟨name, file⟩ -
  cases file with
  | instances items =>
      dsimp only [InstanceFile.items?, typeRecords]
      cases schema.templates.get? name with
      | none => rfl
      | some template => exact map_record_checkItems thresholds name template items
  | _ =>
      dsimp only [InstanceFile.items?, typeRecords]
      cases schema.templates.get? name <;> rfl

-- The values that cannot be are found and counted, however many of them are listed. A template fails
-- by them alone.
theorem checkTypes_reported (schema : Schema) (files : Files) (thresholds : Thresholds) :
    ∃ findings : (template : Template) → (items : List Value) →
        Findings thresholds template items,
      (checkTypes schema files thresholds).map Check.record =
        files.entries.flatMap (typeRecords schema findings) ∧
      ∀ name template items count, schema.templates.get? name = some template →
        files.get? name = some (.instances items) →
          (.defects name count ∈ checkTypes schema files thresholds ↔
            (findings template items).list ≠ [] ∧
              count = (findings template items).list.length) := by
  refine ⟨findings thresholds, map_record_checkTypes schema files thresholds, ?_⟩
  intro name template items count htemplate hfile
  rw [mem_checkTypes_iff]
  constructor
  · rintro ⟨other, template', items', htemplate', hfile', hcheck⟩
    obtain ⟨rfl, hfound⟩ := defects_mem_checkItems_iff.mp hcheck
    cases htemplate.symm.trans htemplate'
    cases hfile.symm.trans hfile'
    exact hfound
  · intro hfound
    exact ⟨name, template, items, htemplate, hfile, defects_mem_checkItems_iff.mpr ⟨rfl, hfound⟩⟩

def crewTemplate : Template :=
  ⟨none, false, [⟨"hp", "byte", "0x10", .primitive, none⟩, ⟨"alive", "bool", "0x11", .primitive, none⟩,
    ⟨"rank", "string", "0x18", .string, none⟩]⟩

def crewSchema : Schema :=
  { Schema.empty with templates := .ofList [("CrewTemplate", crewTemplate)] }

def crewMember (hp : Int) (alive : Value) : Value :=
  .obj [("alive", alive), ("hp", .whole hp), ("rank", .whole 1)]

-- One that has no defect, one that is no object, and three with two defects each.
def crewItems : List Value :=
  [crewMember 255 (.bool true), .null, crewMember 256 .null, crewMember (-1) (.whole 1),
    crewMember 300 (.str "yes")]

def crewFiles : Files :=
  .ofList [("CrewTemplate", .instances crewItems)]

-- More defects than are listed.
theorem crew_defects_reported :
    ∃ findings : (template : Template) → (items : List Value) →
        Findings .standard template items,
      (checkTypes crewSchema crewFiles .standard).map Check.record =
        (findings crewTemplate crewItems).records "CrewTemplate" ∧
      .defects "CrewTemplate" 6 ∈ checkTypes crewSchema crewFiles .standard ∧
      (findings crewTemplate crewItems).list.length = 6 := by
  obtain ⟨listed, hrecords, hcount⟩ := checkTypes_reported crewSchema crewFiles .standard
  have hfound : (findings .standard crewTemplate crewItems).list.length = 6 := by decide +kernel
  have hdefects : .defects "CrewTemplate" 6 ∈ checkTypes crewSchema crewFiles .standard := by
    refine mem_checkTypes rfl rfl (defects_mem_checkItems_iff.mpr ⟨rfl, ?_, hfound.symm⟩)
    exact List.ne_nil_of_length_pos (by omega)
  have hlength := ((hcount _ crewTemplate crewItems 6 rfl rfl).mp hdefects).2
  refine ⟨listed, ?_, hdefects, hlength.symm⟩
  have hentries : crewFiles.entries = [("CrewTemplate", .instances crewItems)] := rfl
  rw [hrecords, hentries, List.flatMap_singleton]
  rfl

end TypeAtlas.Validation
