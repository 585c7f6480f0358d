import Mathlib.Algebra.GroupWithZero.Nat
import TypeAtlas.Proofs.Diff.Equivalence
import TypeAtlas.Proofs.Diff.Group

namespace TypeAtlas.Diff

open Schema (Field Template)

-- How the fields of a template changed. They are taken by name, and the last definition of a name
-- counts.
structure FieldNews (was now : Template) where
  fresh : List (String × Field)
  lost : List (String × Field)
  moved : List (String × Field × Field)
  retyped : List (String × Field × Field)
  fresh_inOrder : InOrder (fun name field =>
    lastField? now.fields name = some field ∧ lastField? was.fields name = none) fresh
  lost_inOrder : InOrder (fun name field =>
    lastField? was.fields name = some field ∧ lastField? now.fields name = none) lost
  moved_inOrder : InOrder (fun name fields =>
    lastField? was.fields name = some fields.1 ∧ lastField? now.fields name = some fields.2 ∧
      Offset.Differ fields.1.offset fields.2.offset) moved
  retyped_inOrder : InOrder (fun name fields =>
    lastField? was.fields name = some fields.1 ∧ lastField? now.fields name = some fields.2 ∧
      ¬Offset.Differ fields.1.offset fields.2.offset ∧
      fields.1.declaredType ≠ fields.2.declaredType) retyped

namespace FieldNews

variable {was now : Template}

def freshRecord (entry : String × Field) : Record Severity :=
  ⟨.info, "  + " ++ entry.1 ++ ": " ++ entry.2.declaredType ++ " @ " ++ entry.2.offset⟩

def lostRecord (entry : String × Field) : Record Severity :=
  ⟨.info, "  - " ++ entry.1 ++ ": " ++ entry.2.declaredType ++ " @ " ++ entry.2.offset⟩

def movedRecord (entry : String × Field × Field) : Record Severity :=
  ⟨.crit, "  OFFSET " ++ entry.1 ++ ": " ++ entry.2.1.offset ++ " -> " ++ entry.2.2.offset ++
    if entry.2.1.declaredType = entry.2.2.declaredType then ""
    else " (type " ++ entry.2.1.declaredType ++ " -> " ++ entry.2.2.declaredType ++ ")"⟩

def retypedRecord (entry : String × Field × Field) : Record Severity :=
  ⟨.warn, "  TYPE " ++ entry.1 ++ ": " ++ entry.2.1.declaredType ++ " -> " ++
    entry.2.2.declaredType⟩

def records (news : FieldNews was now) : List (Record Severity) :=
  news.fresh.map freshRecord ++ news.lost.map lostRecord ++ news.moved.map movedRecord ++
    news.retyped.map retypedRecord

-- The names of the fields with a record each.
def names (news : FieldNews was now) : List String :=
  news.fresh.map Prod.fst ++ news.lost.map Prod.fst ++ news.moved.map Prod.fst ++
    news.retyped.map Prod.fst

-- No field has two records, as it is one of these only by what both sides say of it.
theorem names_nodup (news : FieldNews was now) : news.names.Nodup := by
  have hfresh_lost := news.fresh_inOrder.names_disjoint news.lost_inOrder
    fun name a b hfresh hlost => by
      cases hfresh.2.symm.trans hlost.1
  have hfresh_moved := news.fresh_inOrder.names_disjoint news.moved_inOrder
    fun name a fields hfresh hmoved => by
      cases hfresh.2.symm.trans hmoved.1
  have hfresh_retyped := news.fresh_inOrder.names_disjoint news.retyped_inOrder
    fun name a fields hfresh hretyped => by
      cases hfresh.2.symm.trans hretyped.1
  have hlost_moved := news.lost_inOrder.names_disjoint news.moved_inOrder
    fun name a fields hlost hmoved => by
      cases hlost.2.symm.trans hmoved.2.1
  have hlost_retyped := news.lost_inOrder.names_disjoint news.retyped_inOrder
    fun name a fields hlost hretyped => by
      cases hlost.2.symm.trans hretyped.2.1
  have hmoved_retyped := news.moved_inOrder.names_disjoint news.retyped_inOrder
    fun name fields others hmoved hretyped => by
      obtain ⟨hwas, hnow, hdiffer⟩ := hmoved
      obtain ⟨hwas', hnow', hsame, -⟩ := hretyped
      rw [Option.some.inj (hwas.symm.trans hwas'), Option.some.inj (hnow.symm.trans hnow')]
        at hdiffer
      exact hsame hdiffer
  simp only [names, List.nodup_append', List.disjoint_append_left]
  exact ⟨⟨⟨news.fresh_inOrder.names_nodup, news.lost_inOrder.names_nodup, hfresh_lost⟩,
    news.moved_inOrder.names_nodup, hfresh_moved, hlost_moved⟩,
    news.retyped_inOrder.names_nodup, ⟨hfresh_retyped, hlost_retyped⟩, hmoved_retyped⟩

end FieldNews

theorem mem_retypedFields_iff {was now : Template} {name : String} {a b : Field} :
    (name, a, b) ∈ retypedFields was now ↔ lastField? was.fields name = some a ∧
      lastField? now.fields name = some b ∧ ¬Offset.Differ a.offset b.offset ∧
      a.declaredType ≠ b.declaredType := by
  simp only [retypedFields, List.mem_filter, mem_common_iff, get?_fieldsByName, isMoved,
    Bool.and_eq_true, Bool.not_not, decide_eq_true_eq, ← Offset.same_eq_false_iff,
    Bool.not_eq_false, and_assoc]

-- What a comparison finds of the fields of a template.
def fieldNews (was now : Template) : FieldNews was now where
  fresh := onlyIn (fieldsByName now) (fieldsByName was)
  lost := onlyIn (fieldsByName was) (fieldsByName now)
  moved := movedFields was now
  retyped := retypedFields was now
  fresh_inOrder := by
    simpa only [get?_fieldsByName] using inOrder_onlyIn (fieldsByName now) (fieldsByName was)
  lost_inOrder := by
    simpa only [get?_fieldsByName] using inOrder_onlyIn (fieldsByName was) (fieldsByName now)
  moved_inOrder := inOrder_filter_common fun _ _ _ => mem_movedFields_iff
  retyped_inOrder := inOrder_filter_common fun _ _ _ => mem_retypedFields_iff

theorem map_record_fieldChanges (was now : Template) :
    (fieldChanges was now).map Change.record = (fieldNews was now).records := by
  have hfresh (entry : String × Field) :
      (Change.newField entry.1 entry.2).record = FieldNews.freshRecord entry := by
    simp [Change.record, Change.severity, Change.message, Change.placeText,
      FieldNews.freshRecord, String.append_assoc]
  have hlost (entry : String × Field) :
      (Change.goneField entry.1 entry.2).record = FieldNews.lostRecord entry := by
    simp [Change.record, Change.severity, Change.message, Change.placeText,
      FieldNews.lostRecord, String.append_assoc]
  have hmoved (entry : String × Field × Field) :
      (Change.moved entry.1 entry.2.1 entry.2.2).record = FieldNews.movedRecord entry := by
    simp [Change.record, Change.severity, Change.message, Change.arrow, Change.retypedText,
      FieldNews.movedRecord, String.append_assoc]
  have hretyped (entry : String × Field × Field) :
      (Change.retyped entry.1 entry.2.1 entry.2.2).record = FieldNews.retypedRecord entry := by
    simp [Change.record, Change.severity, Change.message, Change.arrow,
      FieldNews.retypedRecord, String.append_assoc]
  simp only [fieldChanges, List.map_append, List.map_map, Function.comp_def, hfresh, hlost, hmoved,
    hretyped]
  rfl

-- How the templates changed: those that only one side has, and those with fields that differ.
structure TemplateNews (old new : NameMap Template) where
  fresh : List (String × Template)
  lost : List (String × Template)
  changed : List (String × Template × Template)
  fields : (was now : Template) → FieldNews was now
  fresh_inOrder : InOrder (fun name template =>
    new.get? name = some template ∧ old.get? name = none) fresh
  lost_inOrder : InOrder (fun name template =>
    old.get? name = some template ∧ new.get? name = none) lost
  changed_inOrder : InOrder (fun name templates =>
    old.get? name = some templates.1 ∧ new.get? name = some templates.2 ∧
      ¬SameFields templates.1 templates.2) changed

def isOffsetRecord (record : Record Severity) : Bool :=
  record.grade = .crit && "  OFFSET ".toList.isPrefixOf record.message.toList

namespace TemplateNews

variable {old new : NameMap Template}

def changedRecords (news : TemplateNews old new) (entry : String × Template × Template) :
    List (Record Severity) :=
  ⟨.chg, entry.1 ++ ":"⟩ :: (news.fields entry.2.1 entry.2.2).records

-- All records behind the first.
def details (news : TemplateNews old new) : List (Record Severity) :=
  counted .add " new templates" (news.fresh.map fun (name, template) =>
      "  + " ++ name ++ " (" ++ toString template.fields.length ++ " fields)") ++
    counted .del " removed templates" (news.lost.map fun (name, _) => "  - " ++ name) ++
    news.changed.flatMap news.changedRecords

def offsetCount (news : TemplateNews old new) : Nat :=
  news.details.countP isOffsetRecord

def records (news : TemplateNews old new) : List (Record Severity) :=
  if news.offsetCount = 0 then news.details
  else
    ⟨.crit, "*** " ++ toString news.offsetCount ++
      " OFFSET CHANGES - extraction code must be regenerated ***"⟩ :: news.details

end TemplateNews

-- What it finds of all templates.
def templateNews (old new : NameMap Template) : TemplateNews old new where
  fresh := onlyIn new old
  lost := onlyIn old new
  changed := (common old new).filter fun entry => !(fieldChanges entry.2.1 entry.2.2).isEmpty
  fields := fieldNews
  fresh_inOrder := inOrder_onlyIn new old
  lost_inOrder := inOrder_onlyIn old new
  changed_inOrder := by
    refine inOrder_filter_common fun name was now => ?_
    rw [List.mem_filter, mem_common_iff, Bool.not_eq_true', List.isEmpty_eq_false_iff, ne_eq,
      fieldChanges_eq_nil_iff, and_assoc]

theorem countP_isOffsetRecord_counted {severity : Severity} {what : String} {lines : List String}
    (h : severity ≠ .crit) : (counted severity what lines).countP isOffsetRecord = 0 := by
  cases lines <;> simp [counted, isOffsetRecord, h]

theorem isOffsetRecord_movedRecord (entry : String × Field × Field) :
    isOffsetRecord (FieldNews.movedRecord entry) = true := by
  rw [isOffsetRecord, Bool.and_eq_true, List.isPrefixOf_iff_prefix]
  refine ⟨decide_eq_true_iff.mpr rfl, ?_⟩
  unfold FieldNews.movedRecord
  simp only [String.toList_append, List.append_assoc, -String.reduceToList]
  exact List.prefix_append _ _

theorem FieldNews.countP_isOffsetRecord {was now : Template} (news : FieldNews was now) :
    news.records.countP isOffsetRecord = news.moved.length := by
  have hfresh : isOffsetRecord ∘ FieldNews.freshRecord = fun _ => false := rfl
  have hlost : isOffsetRecord ∘ FieldNews.lostRecord = fun _ => false := rfl
  have hmoved : isOffsetRecord ∘ FieldNews.movedRecord = fun _ => true := by
    funext entry
    rw [Function.comp_apply, isOffsetRecord_movedRecord]
  have hretyped : isOffsetRecord ∘ FieldNews.retypedRecord = fun _ => false := rfl
  simp [FieldNews.records, List.countP_map, hfresh, hlost, hmoved, hretyped]

-- Only moved fields are counted.
theorem TemplateNews.offsetCount_eq {old new : NameMap Template} (news : TemplateNews old new) :
    news.offsetCount = (news.changed.map fun entry =>
      (news.fields entry.2.1 entry.2.2).moved.length).sum := by
  have hchanged : List.countP isOffsetRecord ∘ news.changedRecords = fun entry =>
      (news.fields entry.2.1 entry.2.2).moved.length :=
    funext fun entry => (news.fields entry.2.1 entry.2.2).countP_isOffsetRecord
  rw [TemplateNews.offsetCount, TemplateNews.details, List.countP_append, List.countP_append,
    countP_isOffsetRecord_counted (by decide), countP_isOffsetRecord_counted (by decide),
    List.countP_flatMap, hchanged, Nat.zero_add]

theorem moveCount_eq_offsetCount (old new : NameMap Template) :
    moveCount old new = (templateNews old new).offsetCount := by
  have hunmoved (entry : String × Template × Template)
      (h : (!(fieldChanges entry.2.1 entry.2.2).isEmpty) = false) :
      movedFields entry.2.1 entry.2.2 = [] := by
    rw [Bool.not_eq_false', List.isEmpty_iff, fieldChanges] at h
    simp only [List.append_eq_nil_iff, List.map_eq_nil_iff] at h
    exact h.1.2
  rw [TemplateNews.offsetCount_eq, moveCount, ← flatMap_filter_of_nil hunmoved, List.length_flatMap]
  rfl

theorem map_record_templateChanges (entry : String × Template × Template) :
    (templateChanges entry.1 entry.2.1 entry.2.2).map Change.record =
      if (fieldChanges entry.2.1 entry.2.2).isEmpty then []
      else ⟨.chg, entry.1 ++ ":"⟩ :: (fieldNews entry.2.1 entry.2.2).records := by
  rw [templateChanges, apply_ite (List.map Change.record), List.map_cons,
    map_record_fieldChanges]
  rfl

theorem map_record_changed (old new : NameMap Template) :
    ((common old new).flatMap fun (name, was, now) => templateChanges name was now).map
        Change.record =
      (templateNews old new).changed.flatMap (templateNews old new).changedRecords := by
  have hunchanged (entry : String × Template × Template)
      (h : (!(fieldChanges entry.2.1 entry.2.2).isEmpty) = false) :
      (templateChanges entry.1 entry.2.1 entry.2.2).map Change.record = [] := by
    rw [map_record_templateChanges, if_pos (by simpa using h)]
  rw [List.map_flatMap, ← flatMap_filter_of_nil hunchanged]
  refine List.flatMap_congr fun entry hchanged => ?_
  have hdiffers : ¬(fieldChanges entry.2.1 entry.2.2).isEmpty = true := by
    simpa using (List.mem_filter.mp hchanged).2
  rw [map_record_templateChanges, if_neg hdiffers]
  rfl

theorem map_record_compareTemplates (old new : NameMap Template) :
    (compareTemplates old new).map Change.record = (templateNews old new).records := by
  have hdetails : (addedAndRemoved .templates
      (fun (name, template) => .newTemplate name template.fields.length) old new ++
        (common old new).flatMap fun (name, was, now) => templateChanges name was now).map
          Change.record = (templateNews old new).details := by
    rw [List.map_append, map_record_addedAndRemoved fun _ => rfl, map_record_changed]
    rfl
  rw [compareTemplates, List.append_assoc, List.map_append, hdetails, moveCount_eq_offsetCount,
    TemplateNews.records]
  split <;> rfl

-- Each difference is reported once. The count of moved fields comes first, if there are any, then the
-- templates that only one side has, and then the fields of those that changed.
theorem compareTemplates_reported (old new : NameMap Template) :
    ∃ news : TemplateNews old new,
      (compareTemplates old new).map Change.record = news.records ∧
      (news.offsetCount = (news.changed.map fun entry =>
        (news.fields entry.2.1 entry.2.2).moved.length).sum) ∧
      (∀ was now, (news.fields was now).names.Nodup) ∧
      ∀ was now, (news.fields was now).records = [] ↔ SameFields was now := by
  refine ⟨templateNews old new, map_record_compareTemplates old new,
    TemplateNews.offsetCount_eq _, fun was now => FieldNews.names_nodup _, fun was now => ?_⟩
  have hrecords := List.map_eq_nil_iff (f := Change.record) (l := fieldChanges was now)
  rw [map_record_fieldChanges] at hrecords
  exact hrecords.trans fieldChanges_eq_nil_iff

end TypeAtlas.Diff
