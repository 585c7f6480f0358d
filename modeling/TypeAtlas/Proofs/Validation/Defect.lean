import TypeAtlas.Proofs.Validation.Check

namespace TypeAtlas.Validation

open Json (Value)
open Schema (Field Template)

-- The last of the primitive fields with one name, the one by which values are checked.
def Checked (template : Template) (field : Field) : Prop :=
  field.category = .primitive ∧ ∃ front back, template.fields = front ++ field :: back ∧
    ∀ other ∈ back, other.category = .primitive → other.name ≠ field.name

-- A value that one of the first instances has for a field.
def Sampled (thresholds : Thresholds) (items : List Value) (field : Field) (value : Value) : Prop :=
  ∃ item ∈ items.take thresholds.typeCheckSample, item.get? field.name = some value

def HasDefect (thresholds : Thresholds) (template : Template) (items : List Value) : Prop :=
  ∃ field value, Checked template field ∧ Sampled thresholds items field value ∧
    problem? thresholds field.declaredType value ≠ none

variable {schema : Schema} {files : Files} {thresholds : Thresholds} {template : Template}
  {items : List Value} {name : String}

-- The map of the primitive fields holds the last one of each name.
theorem primitiveFields_eq_some_iff {field : Field} :
    (primitiveFields template).get? name = some field ↔
      Checked template field ∧ field.name = name := by
  have hfind : (primitiveFields template).get? name =
      template.fields.reverse.find? fun f => f.category = .primitive && f.name = name := by
    rw [primitiveFields, NameMap.get?_ofList, ← List.map_reverse, ← List.filter_reverse,
      List.find?_map, List.find?_filter, Option.map_map]
    simp [Function.comp_def]
  rw [hfind, List.find?_eq_some_iff_append]
  constructor
  · rintro ⟨hfield, back, front, hfields, hback⟩
    obtain ⟨hprimitive, hname⟩ : field.category = .primitive ∧ field.name = name := by
      simpa using hfield
    have hsplit : template.fields = front.reverse ++ field :: back.reverse := by
      rw [← List.reverse_reverse template.fields, hfields]
      simp
    refine ⟨⟨hprimitive, front.reverse, back.reverse, hsplit, ?_⟩, hname⟩
    intro other hother hkind
    have hne := hback other (List.mem_reverse.mp hother)
    simpa [hkind, hname] using hne
  · rintro ⟨⟨hprimitive, front, back, hfields, hlast⟩, rfl⟩
    refine ⟨by simp [hprimitive], back.reverse, front.reverse, by simp [hfields], ?_⟩
    intro other hother
    have hne := hlast other (List.mem_reverse.mp hother)
    simpa [imp_iff_not_or] using hne

theorem itemDefects_ne_nil_iff {item : Value} :
    itemDefects thresholds name (primitiveFields template) item ≠ [] ↔
      ∃ field value, Checked template field ∧ item.get? field.name = some value ∧
        problem? thresholds field.declaredType value ≠ none := by
  simp only [itemDefects, ne_eq, List.filterMap_eq_nil_iff, not_forall, Prod.exists, exists_prop,
    ← NameMap.get?_eq_some_iff]
  constructor
  · rintro ⟨other, field, hfield, hfound⟩
    obtain ⟨hchecked, rfl⟩ := primitiveFields_eq_some_iff.mp hfield
    cases hvalue : item.get? field.name with
    | none => simp [hvalue] at hfound
    | some value => exact ⟨field, value, hchecked, hvalue, by simpa [hvalue] using hfound⟩
  · rintro ⟨field, value, hchecked, hvalue, hproblem⟩
    refine ⟨field.name, field, primitiveFields_eq_some_iff.mpr ⟨hchecked, rfl⟩, ?_⟩
    simpa [hvalue] using hproblem

theorem fileDefects_ne_nil_iff :
    fileDefects thresholds name template items ≠ [] ↔ HasDefect thresholds template items := by
  simp only [fileDefects, ne_eq, List.flatMap_eq_nil_iff, not_forall]
  constructor
  · rintro ⟨item, hitem, hdefects⟩
    obtain ⟨field, value, hchecked, hvalue, hproblem⟩ := itemDefects_ne_nil_iff.mp hdefects
    exact ⟨field, value, hchecked, ⟨item, hitem, hvalue⟩, hproblem⟩
  · rintro ⟨field, value, hchecked, ⟨item, hitem, hvalue⟩, hproblem⟩
    exact ⟨item, hitem, itemDefects_ne_nil_iff.mpr ⟨field, value, hchecked, hvalue, hproblem⟩⟩

theorem exists_fail_of_hasDefect (h : HasDefect thresholds template items) :
    ∃ check ∈ checkItems thresholds name template items, check.level = .fail := by
  have hfound := (@fileDefects_ne_nil_iff thresholds template items name).mpr h
  rw [checkItems, if_neg (List.isEmpty_iff.not.mpr hfound)]
  exact ⟨_, List.mem_cons_self, rfl⟩

theorem checkItems_good :
    (∀ check ∈ checkItems thresholds name template items, check.Good) ↔
      ¬ HasDefect thresholds template items := by
  constructor
  · intro hgood hdefect
    obtain ⟨check, hcheck, hfail⟩ := exists_fail_of_hasDefect hdefect
    exact (hgood check hcheck).1 hfail
  · intro hclean
    have hnone : (fileDefects thresholds name template items).isEmpty = true := by
      by_contra hfound
      exact hclean (fileDefects_ne_nil_iff.mp (List.isEmpty_iff.not.mp hfound))
    rw [checkItems, if_pos hnone]
    split
    · exact List.forall_mem_singleton.mpr (good_pass rfl)
    · exact List.forall_mem_nil _

-- What is found of the types is found in some file that is a list and belongs to a template.
theorem mem_checkTypes_iff {check : Check} :
    check ∈ checkTypes schema files thresholds ↔
      ∃ name template items, schema.templates.get? name = some template ∧
        files.get? name = some (.instances items) ∧
        check ∈ checkItems thresholds name template items := by
  rw [checkTypes, List.mem_flatMap]
  constructor
  · rintro ⟨⟨name, file⟩, hfile, hcheck⟩
    dsimp only at hcheck
    split at hcheck
    · rename_i template items htemplate hitems
      obtain rfl := InstanceFile.items?_eq_some_iff.mp hitems
      exact ⟨name, template, items, htemplate, NameMap.get?_eq_some_iff.mpr hfile, hcheck⟩
    · cases hcheck
  · rintro ⟨name, template, items, htemplate, hfile, hcheck⟩
    refine ⟨(name, .instances items), NameMap.get?_eq_some_iff.mp hfile, ?_⟩
    simpa only [htemplate, InstanceFile.items?] using hcheck

theorem mem_checkTypes {check : Check} (htemplate : schema.templates.get? name = some template)
    (hfile : files.get? name = some (.instances items))
    (h : check ∈ checkItems thresholds name template items) :
    check ∈ checkTypes schema files thresholds :=
  mem_checkTypes_iff.mpr ⟨name, template, items, htemplate, hfile, h⟩

theorem checkTypes_good :
    (∀ check ∈ checkTypes schema files thresholds, check.Good) ↔
      ∀ name template items, schema.templates.get? name = some template →
        files.get? name = some (.instances items) → ¬ HasDefect thresholds template items := by
  constructor
  · intro h name template items htemplate hfile
    have hchecks : ∀ check ∈ checkItems thresholds name template items, check.Good :=
      fun check hcheck => h check (mem_checkTypes htemplate hfile hcheck)
    exact checkItems_good.mp hchecks
  · intro h check hcheck
    obtain ⟨name, template, items, htemplate, hfile, hcheck⟩ := mem_checkTypes_iff.mp hcheck
    exact checkItems_good.mpr (h name template items htemplate hfile) check hcheck

end TypeAtlas.Validation
