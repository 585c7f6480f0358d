import TypeAtlas.Proofs.Validation.Defect

namespace TypeAtlas.Validation

open Json (Value)
open Schema (Template)

-- A file that belongs to a template and has no value that cannot be.
def IsSound (schema : Schema) (files : Files) (thresholds : Thresholds) (name : String)
    (items : List Value) : Prop :=
  files.get? name = some (.instances items) ∧
    ∃ template, schema.templates.get? name = some template ∧ ¬HasDefect thresholds template items

-- One of the first instances has a key that may be a field.
def HasRealData (thresholds : Thresholds) (items : List Value) : Prop :=
  ∃ members, .obj members ∈ items.take 5 ∧
    ∃ key ∈ members.map Prod.fst, thresholds.ignoredInstanceKeys.contains key = false

-- One of them has several keys, fields or not.
def HasSeveralKeys (items : List Value) : Prop :=
  ∃ members, .obj members ∈ items.take 5 ∧ 1 < members.length

-- Each of them that is an object has one key that is no field, as a name is.
def HasOneIgnoredKeyEach (thresholds : Thresholds) (items : List Value) : Prop :=
  ∀ members, .obj members ∈ items.take 5 →
    members.countP (fun member => thresholds.ignoredInstanceKeys.contains member.1) = 1

variable {schema : Schema} {files : Files} {thresholds : Thresholds} {template : Template}
  {items : List Value} {name : String}

theorem hasData_iff : hasData items = true ↔ HasSeveralKeys items := by
  rw [hasData, List.any_eq_true]
  constructor
  · rintro ⟨item, hitem, hkeys⟩
    cases item with
    | obj members => exact ⟨members, hitem, by simpa [Value.members?] using hkeys⟩
    | _ => simp [Value.members?] at hkeys
  · rintro ⟨members, hitem, hkeys⟩
    exact ⟨.obj members, hitem, by simpa [Value.members?] using hkeys⟩

theorem clean_mem_checkItems_iff {other : String} :
    .clean other ∈ checkItems thresholds name template items ↔
      other = name ∧ ¬HasDefect thresholds template items ∧ HasSeveralKeys items := by
  rw [← hasData_iff, ← @fileDefects_ne_nil_iff thresholds template items name, not_not]
  simp only [checkItems, List.isEmpty_iff]
  by_cases hsound : fileDefects thresholds name template items = []
  · rw [if_pos hsound]
    split <;> simp [*]
  · rw [if_neg hsound]
    split <;> simp [hsound, -List.map_take]

theorem clean_mem_checkTypes_iff :
    .clean name ∈ checkTypes schema files thresholds ↔
      ∃ items, IsSound schema files thresholds name items ∧ HasSeveralKeys items := by
  rw [mem_checkTypes_iff]
  constructor
  · rintro ⟨other, template, items, htemplate, hfile, hcheck⟩
    obtain ⟨rfl, hsound, hkeys⟩ := clean_mem_checkItems_iff.mp hcheck
    exact ⟨items, ⟨hfile, template, htemplate, hsound⟩, hkeys⟩
  · rintro ⟨items, ⟨hfile, template, htemplate, hsound⟩, hkeys⟩
    exact ⟨name, template, items, htemplate, hfile,
      clean_mem_checkItems_iff.mpr ⟨rfl, hsound, hkeys⟩⟩

-- An object with one key that is no field has a further key just if it has a field.
theorem several_iff_of_ignored_once {members : List (String × Value)}
    (h : members.countP (fun member => thresholds.ignoredInstanceKeys.contains member.1) = 1) :
    1 < members.length ↔
      ∃ key ∈ members.map Prod.fst, thresholds.ignoredInstanceKeys.contains key = false := by
  have hsplit := members.length_eq_countP_add_countP
    fun member => thresholds.ignoredInstanceKeys.contains member.1
  have hfields : 1 < members.length ↔ 0 < members.countP fun member =>
      ¬thresholds.ignoredInstanceKeys.contains member.1 = true := by
    omega
  rw [hfields, List.countP_pos_iff]
  simp [List.mem_map]

theorem hasSeveralKeys_iff_hasRealData (h : HasOneIgnoredKeyEach thresholds items) :
    HasSeveralKeys items ↔ HasRealData thresholds items :=
  exists_congr fun members => and_congr_right fun hmem =>
    several_iff_of_ignored_once (h members hmem)

-- A sound file passes by the number of keys. That tells of real data for instances that have just
-- their name of the keys that are no fields.
theorem clean_realData (schema : Schema) (files : Files) (thresholds : Thresholds)
    (name : String) :
    (.clean name ∈ checkTypes schema files thresholds ↔
      ∃ items, IsSound schema files thresholds name items ∧ HasSeveralKeys items) ∧
    ((.clean name ∈ checkTypes schema files thresholds ↔
        ∃ items, IsSound schema files thresholds name items ∧ HasRealData thresholds items) ↔
      ∀ items, IsSound schema files thresholds name items →
        (HasSeveralKeys items ↔ HasRealData thresholds items)) ∧
    ∀ items, HasOneIgnoredKeyEach thresholds items →
      (HasSeveralKeys items ↔ HasRealData thresholds items) := by
  refine ⟨clean_mem_checkTypes_iff, ?_, fun items => hasSeveralKeys_iff_hasRealData⟩
  rw [clean_mem_checkTypes_iff]
  constructor
  · intro h items hsound
    -- A name has one file, so what holds of some items holds of these.
    have hsame : ∀ other, IsSound schema files thresholds name other → other = items := by
      intro other hother
      cases hother.1.symm.trans hsound.1
      rfl
    constructor
    · intro hkeys
      obtain ⟨other, hother, hdata⟩ := h.mp ⟨items, hsound, hkeys⟩
      exact hsame other hother ▸ hdata
    · intro hdata
      obtain ⟨other, hother, hkeys⟩ := h.mpr ⟨items, hsound, hdata⟩
      exact hsame other hother ▸ hkeys
  · intro h
    exact exists_congr fun items => and_congr_right (h items)

def scoutTemplate : Template :=
  ⟨none, false, [⟨"hp", "int", "0x10", .primitive, none⟩]⟩

def scoutSchema : Schema where
  version := "1.0.0"
  hash := ""
  enums := .empty
  structs := .empty
  embedded := .empty
  templates := .ofList [("ScoutTemplate", scoutTemplate)]
  inheritance := .empty

def scoutItems (members : List (String × Value)) : List Value :=
  [.obj members]

def scoutFiles (members : List (String × Value)) : Files :=
  .ofList [("ScoutTemplate", .instances (scoutItems members))]

-- The keys that every extracted instance has.
def labelMembers : List (String × Value) :=
  [("_template_type", .str "ScoutTemplate"), ("name", .str "Rook")]

def hpMembers : List (String × Value) :=
  [("hp", .whole 5)]

theorem isSound_scout {members : List (String × Value)}
    (h : (fileDefects .standard "ScoutTemplate" scoutTemplate (scoutItems members)).isEmpty) :
    IsSound scoutSchema (scoutFiles members) .standard "ScoutTemplate" (scoutItems members) := by
  refine ⟨rfl, scoutTemplate, rfl, ?_⟩
  rw [← @fileDefects_ne_nil_iff _ _ _ "ScoutTemplate", not_not]
  exact List.isEmpty_iff.mp h

theorem hasOneIgnoredKeyEach_scout {members : List (String × Value)}
    (h : members.countP
      (fun member => Thresholds.standard.ignoredInstanceKeys.contains member.1) = 1) :
    HasOneIgnoredKeyEach .standard (scoutItems members) := by
  intro other hmem
  cases List.mem_singleton.mp hmem
  exact h

def rookMembers : List (String × Value) :=
  [("name", .str "Rook"), ("hp", .whole 5)]

def bareMembers : List (String × Value) :=
  rookMembers.take 1

-- Where each instance has its name and no further key of that kind, a file passes by its fields.
theorem scout_clean_with_data :
    (HasOneIgnoredKeyEach .standard (scoutItems rookMembers) ∧
      HasRealData .standard (scoutItems rookMembers) ∧
      .clean "ScoutTemplate" ∈ checkTypes scoutSchema (scoutFiles rookMembers) .standard) ∧
    HasOneIgnoredKeyEach .standard (scoutItems bareMembers) ∧
      ¬HasRealData .standard (scoutItems bareMembers) ∧
      .clean "ScoutTemplate" ∉ checkTypes scoutSchema (scoutFiles bareMembers) .standard := by
  obtain ⟨hrook, -, hrookData⟩ :=
    clean_realData scoutSchema (scoutFiles rookMembers) .standard "ScoutTemplate"
  obtain ⟨hbare, -, hbareData⟩ :=
    clean_realData scoutSchema (scoutFiles bareMembers) .standard "ScoutTemplate"
  have hrookOnce : HasOneIgnoredKeyEach .standard (scoutItems rookMembers) :=
    hasOneIgnoredKeyEach_scout (by decide +kernel)
  have hbareOnce : HasOneIgnoredKeyEach .standard (scoutItems bareMembers) :=
    hasOneIgnoredKeyEach_scout (by decide +kernel)
  have hrookKeys : HasSeveralKeys (scoutItems rookMembers) := hasData_iff.mp (by decide +kernel)
  have hbareKeys : ¬HasSeveralKeys (scoutItems bareMembers) :=
    hasData_iff.not.mp (by decide +kernel)
  refine ⟨⟨hrookOnce, (hrookData _ hrookOnce).mp hrookKeys, ?_⟩, hbareOnce,
    (hbareData _ hbareOnce).not.mp hbareKeys, fun hclean => ?_⟩
  · exact hrook.mpr ⟨_, isSound_scout (by decide +kernel), hrookKeys⟩
  · obtain ⟨items, hsound, hkeys⟩ := hbare.mp hclean
    cases hsound.1.symm.trans (rfl : (scoutFiles bareMembers).get? "ScoutTemplate" =
      some (.instances (scoutItems bareMembers)))
    exact hbareKeys hkeys

-- Two keys pass though neither is a field, and one key does not though it is a field.
theorem scout_clean_without_data :
    (.clean "ScoutTemplate" ∈ checkTypes scoutSchema (scoutFiles labelMembers) .standard ∧
      ¬HasRealData .standard (scoutItems labelMembers)) ∧
    IsSound scoutSchema (scoutFiles hpMembers) .standard "ScoutTemplate" (scoutItems hpMembers) ∧
      HasRealData .standard (scoutItems hpMembers) ∧
      .clean "ScoutTemplate" ∉ checkTypes scoutSchema (scoutFiles hpMembers) .standard := by
  have hlabels : HasSeveralKeys (scoutItems labelMembers) :=
    hasData_iff.mp (by decide +kernel)
  have hnone : checkTypes scoutSchema (scoutFiles hpMembers) .standard = [] :=
    List.isEmpty_iff.mp (by decide +kernel)
  refine ⟨⟨clean_mem_checkTypes_iff.mpr ⟨_, isSound_scout (by decide +kernel), hlabels⟩, ?_⟩,
    isSound_scout (by decide +kernel), ?_, ?_⟩
  · rintro ⟨members, hmem, key, hkey, hfield⟩
    obtain rfl : members = labelMembers := by simpa [scoutItems] using hmem
    have hignored : ∀ key ∈ labelMembers.map Prod.fst,
        Thresholds.standard.ignoredInstanceKeys.contains key = true := by decide +kernel
    exact Bool.false_ne_true (hfield.symm.trans (hignored key hkey))
  · exact ⟨hpMembers, List.mem_cons_self, "hp", List.mem_cons_self, by decide +kernel⟩
  · rw [hnone]
    exact List.not_mem_nil

end TypeAtlas.Validation
