import Mathlib.Data.Finset.SDiff
import TypeAtlas.Proofs.Text.ByteOrder
import TypeAtlas.Proofs.Validation.Check

namespace TypeAtlas.Validation

open Json (Value)
open Schema (Field Template)

-- The names of a set, each once and in the order of their bytes.
structure Lists (names : Finset String) (list : List String) : Prop where
  rising : list.Pairwise fun a b => Text.encode a.toList < Text.encode b.toList
  complete : ∀ name, name ∈ list ↔ name ∈ names

-- An object with a name, even if that only stands in for one.
def HasName (item : Value) : Prop :=
  ∃ name, item.get? "name" = some (.str name) ∧ name ≠ ""

-- The object that stands for all instances: the first with a name, or the first if none has one.
inductive Represents (items : List Value) (members : List (String × Value)) : Prop
  | named {front back : List Value} : items = front ++ .obj members :: back →
      HasName (.obj members) → (∀ item ∈ front, ¬HasName item) → Represents items members
  | first : items.head? = some (.obj members) → (∀ item ∈ items, ¬HasName item) →
      Represents items members

-- The simple fields of a template that an instance has.
def heldNames (template : Template) (item : Value) : Finset String :=
  (simpleFieldNames template).filter fun name => (item.get? name).isSome

-- Names that count as those of the fields that an instance has. A field that goes by the name of a key
-- that is no field may count or not.
structure Counted (thresholds : Thresholds) (template : Template) (item : Value)
    (present : Finset String) : Prop where
  held : present ⊆ heldNames template item
  complete : ∀ name ∈ heldNames template item,
    thresholds.ignoredInstanceKeys.contains name = false → name ∈ present

-- No field of an instance has the name of a key that is no field.
def NoneIgnored (thresholds : Thresholds) (template : Template) (item : Value) : Prop :=
  ∀ name ∈ heldNames template item, thresholds.ignoredInstanceKeys.contains name = false

def coverageLevel (thresholds : Thresholds) (present expected : Nat) : Level :=
  if share present expected ≥ thresholds.fieldPassRatio then .pass
  else if share present expected ≥ thresholds.fieldWarnRatio then .warn
  else .fail

-- How many simple fields are present, and unless these are enough, the first of those that are not.
def coverageRecords (thresholds : Thresholds) (name : String) (template : Template)
    (present : Finset String) (missing : List String) : List (Record Level) :=
  let expected := (simpleFieldNames template).card
  let complex := template.fields.countP fun f => !f.category.isSimple
  let level := coverageLevel thresholds present.card expected
  if simpleFieldNames template = ∅ then []
  else
    ⟨level, name ++ ": " ++ toString present.card ++ "/" ++ toString expected ++ " fields" ++
      if complex = 0 then "" else " (" ++ toString complex ++ " complex skipped)"⟩ ::
      if level = .pass then []
      else (missing.take thresholds.maxDetailLines).map fun field => ⟨.info, "  Missing: " ++ field⟩

variable {schema : Schema} {files : Files} {thresholds : Thresholds} {template : Template}
  {items : List Value} {members : List (String × Value)} {name : String}

theorem nameOf?_isSome_iff {item : Value} : (nameOf? item).isSome = true ↔ HasName item := by
  rw [nameOf?, HasName]
  cases hget : item.get? "name" with
  | none => simp
  | some value =>
      cases value with
      | str name => by_cases hname : name = "" <;> simp [hname]
      | _ => simp

theorem members?_eq_some_iff {item : Value} :
    item.members? = some members ↔ item = .obj members := by
  cases item <;> simp [Value.members?]

theorem represents_iff : representative? items = some members ↔ Represents items members := by
  rw [representative?]
  constructor
  · intro h
    cases hfind : items.find? fun item => (nameOf? item).isSome with
    | some item =>
        rw [hfind] at h
        obtain rfl := members?_eq_some_iff.mp h
        obtain ⟨hname, front, back, hitems, hfront⟩ := List.find?_eq_some_iff_append.mp hfind
        refine .named hitems (nameOf?_isSome_iff.mp hname) fun item hitem hnamed => ?_
        simpa [nameOf?_isSome_iff.mpr hnamed] using hfront item hitem
    | none =>
        rw [hfind] at h
        obtain ⟨first, hfirst, hmembers⟩ := Option.bind_eq_some_iff.mp h
        obtain rfl := members?_eq_some_iff.mp hmembers
        refine .first hfirst fun item hitem hnamed => ?_
        exact List.find?_eq_none.mp hfind item hitem (nameOf?_isSome_iff.mpr hnamed)
  · intro h
    cases h with
    | @named front back hitems hname hfront =>
        have hfind : items.find? (fun item => (nameOf? item).isSome) = some (.obj members) := by
          refine List.find?_eq_some_iff_append.mpr
            ⟨nameOf?_isSome_iff.mpr hname, front, back, hitems, fun item hitem => ?_⟩
          rw [Bool.not_eq_true', ← Bool.not_eq_true, nameOf?_isSome_iff]
          exact hfront item hitem
        rw [hfind]
        rfl
    | first hfirst hnone =>
        have hfind : items.find? (fun item => (nameOf? item).isSome) = none :=
          List.find?_eq_none.mpr fun item hitem =>
            nameOf?_isSome_iff.not.mpr (hnone item hitem)
        rw [hfind]
        simp [hfirst, Value.members?]

-- The count is settled where no such name comes into it.
theorem Counted.eq_heldNames {item : Value} {present : Finset String}
    (h : Counted thresholds template item present) (hnone : NoneIgnored thresholds template item) :
    present = heldNames template item :=
  Finset.Subset.antisymm h.held fun name hname => h.complete name hname (hnone name hname)

theorem counted_presentNames (thresholds : Thresholds) (template : Template) (item : Value) :
    Counted thresholds template item (presentNames thresholds template item) where
  held name hname := by
    obtain ⟨hsimple, hfound⟩ := Finset.mem_filter.mp hname
    exact Finset.mem_filter.mpr ⟨hsimple, hfound.2⟩
  complete name hname hfield := by
    obtain ⟨hsimple, hfound⟩ := Finset.mem_filter.mp hname
    exact Finset.mem_filter.mpr ⟨hsimple, hfield, hfound⟩

def missingNames (thresholds : Thresholds) (template : Template)
    (members : List (String × Value)) : List String :=
  (simpleNames template).filter fun field => !(fieldKeys thresholds members).contains field

theorem mem_simpleNames_iff : name ∈ simpleNames template ↔ name ∈ simpleFieldNames template := by
  rw [← simpleNames_toFinset, List.mem_toFinset]

theorem missingNames_lists (thresholds : Thresholds) (template : Template)
    (members : List (String × Value)) :
    Lists (simpleFieldNames template \ presentNames thresholds template (.obj members))
      (missingNames thresholds template members) where
  rising := by
    have hrising : (simpleNames template).Pairwise fun a b => a < b :=
      List.pairwise_map.mpr (NameMap.rising _)
    exact (hrising.filter _).imp Text.encode_lt_encode
  complete name := by
    rw [missingNames, List.mem_filter, mem_simpleNames_iff, Finset.mem_sdiff, presentNames,
      Finset.mem_filter, Bool.not_eq_true', ← Bool.not_eq_true, List.contains_iff_mem,
      mem_fieldKeys_iff]
    refine and_congr_right fun hname => ?_
    rw [and_iff_right hname]

theorem map_record_checkPresence (thresholds : Thresholds) (name : String) (template : Template)
    (members : List (String × Value)) :
    (checkPresence thresholds name template members).map Check.record =
      coverageRecords thresholds name template (presentNames thresholds template (.obj members))
        (missingNames thresholds template members) := by
  simp only [checkPresence, present_count]
  simp only [simpleNames_length, simpleNames_isEmpty_iff, coverageRecords]
  by_cases hnone : simpleFieldNames template = ∅
  · rw [if_pos hnone, if_pos hnone]
    rfl
  · rw [if_neg hnone, if_neg hnone, List.map_cons, apply_ite (List.map Check.record), List.map_map]
    rfl

-- The fields of the object that stands for a file are counted out of all, and those that are not there
-- are listed where too few are.
theorem checkFields_reported (schema : Schema) (files : Files) (thresholds : Thresholds) :
    ∃ report : String × InstanceFile → List (Record Level),
      (checkFields schema files thresholds).map Check.record = files.entries.flatMap report ∧
      (∀ name file, (schema.templates.get? name = none ∨
          ∀ items members, file = .instances items → ¬Represents items members) →
        report (name, file) = []) ∧
      ∀ name template items members, schema.templates.get? name = some template →
        Represents items members →
          ∃ present missing, Counted thresholds template (.obj members) present ∧
            (NoneIgnored thresholds template (.obj members) →
              present = heldNames template (.obj members)) ∧
            Lists (simpleFieldNames template \ present) missing ∧
            report (name, .instances items) =
              coverageRecords thresholds name template present missing := by
  rw [checkFields, List.map_flatMap]
  refine ⟨_, rfl, ?_, ?_⟩
  · intro name file hnone
    dsimp only
    split
    · rename_i template members htemplate hmembers
      obtain ⟨items, hitems, hmembers⟩ := Option.bind_eq_some_iff.mp hmembers
      rcases hnone with hnone | hnone
      · cases htemplate.symm.trans hnone
      · exact absurd (represents_iff.mp hmembers)
          (hnone items members (InstanceFile.items?_eq_some_iff.mp hitems))
    · rfl
  · intro name template items members htemplate hmembers
    have hcounted := counted_presentNames thresholds template (.obj members)
    refine ⟨_, missingNames thresholds template members, hcounted, hcounted.eq_heldNames,
      missingNames_lists thresholds template members, ?_⟩
    simp only [htemplate, InstanceFile.items?, Option.bind_some, represents_iff.mpr hmembers]
    exact map_record_checkPresence thresholds name template members

def textFields (names : List String) : List Field :=
  names.map fun name => ⟨name, "string", "0x10", .string, none⟩

def flagNames : List String :=
  ["badge", "banner", "biome", "color", "crest", "emblem", "motto", "origin", "rank", "title"]

def flagTemplate : Template :=
  ⟨none, false, textFields flagNames⟩

def titleTemplate : Template :=
  ⟨none, false, textFields ["name"]⟩

def textSchema : Schema where
  version := "1.0.0"
  hash := ""
  enums := .empty
  structs := .empty
  embedded := .empty
  templates := .ofList [("FlagTemplate", flagTemplate), ("TitleTemplate", titleTemplate)]
  inheritance := .empty

-- An instance without a name, and one with a name and four of the fields.
def namedMembers : List (String × Value) :=
  ("name", .str "Rook") :: (flagNames.take 4).map fun name => (name, .str "plain")

def namedItems : List Value :=
  [.obj [("badge", .str "plain")], .obj namedMembers]

def namedFiles : Files :=
  .ofList [("FlagTemplate", .instances namedItems)]

theorem named_flag_reported :
    (Represents namedItems namedMembers ∧ NoneIgnored .standard flagTemplate (.obj namedMembers)) ∧
      ∃ missing,
        Lists (simpleFieldNames flagTemplate \ heldNames flagTemplate (.obj namedMembers)) missing ∧
        (checkFields textSchema namedFiles .standard).map Check.record =
          coverageRecords .standard "FlagTemplate" flagTemplate
            (heldNames flagTemplate (.obj namedMembers)) missing := by
  have hrepresents : Represents namedItems namedMembers := by
    have hitems : namedItems = [.obj [("badge", .str "plain")]] ++ .obj namedMembers :: [] := rfl
    refine .named hitems (nameOf?_isSome_iff.mp (by decide +kernel)) fun item hitem hname => ?_
    obtain rfl := List.mem_singleton.mp hitem
    cases nameOf?_isSome_iff.mpr hname
  have hnone : NoneIgnored .standard flagTemplate (.obj namedMembers) := by
    unfold NoneIgnored
    decide +kernel
  obtain ⟨report, hreport, -, hrecords⟩ := checkFields_reported textSchema namedFiles .standard
  obtain ⟨present, missing, -, hpresent, hlists, hrecord⟩ :=
    hrecords "FlagTemplate" flagTemplate namedItems namedMembers rfl hrepresents
  obtain rfl := hpresent hnone
  have hentries : namedFiles.entries = [("FlagTemplate", .instances namedItems)] := rfl
  refine ⟨⟨hrepresents, hnone⟩, missing, hlists, ?_⟩
  rw [hreport, hentries, List.flatMap_singleton, hrecord]

-- All of them but the last.
def flagMembers : List (String × Value) :=
  flagNames.dropLast.map fun name => (name, .str "plain")

def titleMembers : List (String × Value) :=
  [("name", .str "Rook")]

def textFiles : Files :=
  .ofList [("FlagTemplate", .instances [.obj flagMembers]),
    ("TitleTemplate", .instances [.obj titleMembers])]

-- A field that is not there goes without a line where enough others are, and a field that is there
-- has one if it is called as the names of instances are.
theorem text_fields_unlisted :
    (checkFields textSchema textFiles .standard).map Check.record =
        [⟨.pass, "FlagTemplate: 9/10 fields"⟩, ⟨.fail, "TitleTemplate: 0/1 fields"⟩,
          ⟨.info, "  Missing: name"⟩] ∧
      "title" ∈ simpleFieldNames flagTemplate \ heldNames flagTemplate (.obj flagMembers) ∧
      "name" ∈ heldNames titleTemplate (.obj titleMembers) := by
  decide +kernel

end TypeAtlas.Validation
