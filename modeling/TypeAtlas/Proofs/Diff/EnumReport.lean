import TypeAtlas.Proofs.Diff.Equivalence
import TypeAtlas.Proofs.Diff.Group

namespace TypeAtlas.Diff

open Schema (Enum)

-- How the values of an enum changed.
structure ValueNews (was now : Enum) where
  fresh : List (String × Int64)
  lost : List (String × Int64)
  renumbered : List (String × Int64 × Int64)
  fresh_inOrder : InOrder (fun name n =>
    now.values.get? name = some n ∧ was.values.get? name = none) fresh
  lost_inOrder : InOrder (fun name n =>
    was.values.get? name = some n ∧ now.values.get? name = none) lost
  renumbered_inOrder : InOrder (fun name ns =>
    was.values.get? name = some ns.1 ∧ now.values.get? name = some ns.2 ∧ ns.1 ≠ ns.2) renumbered

def valueNames (enum : Enum) : Finset String :=
  enum.values.names.toFinset

theorem mem_valueNames_iff {enum : Enum} {name : String} :
    name ∈ valueNames enum ↔ ∃ n, enum.values.get? name = some n := by
  rw [valueNames, List.mem_toFinset, NameMap.mem_names_iff, NameMap.contains_iff]

theorem not_mem_valueNames_iff {enum : Enum} {name : String} :
    name ∉ valueNames enum ↔ enum.values.get? name = none := by
  rw [mem_valueNames_iff, ← Option.isSome_iff_exists, Bool.not_eq_true, Option.isSome_eq_false_iff,
    Option.isNone_iff_eq_none]

-- The names that stand for different integers on the two sides.
def renumberedNames (was now : Enum) : Finset String :=
  (valueNames was ∩ valueNames now).filter fun name =>
    was.values.get? name ≠ now.values.get? name

namespace ValueNews

variable {was now : Enum}

def freshRecord (entry : String × Int64) : Record Severity :=
  ⟨.info, "  + " ++ entry.1 ++ " = " ++ toString entry.2⟩

def lostRecord (entry : String × Int64) : Record Severity :=
  ⟨.info, "  - " ++ entry.1 ++ " = " ++ toString entry.2⟩

def renumberedRecord (entry : String × Int64 × Int64) : Record Severity :=
  ⟨.crit, "  ~ " ++ entry.1 ++ ": " ++ toString entry.2.1 ++ " -> " ++ toString entry.2.2⟩

-- The counts of the enum with the name, and behind them what they count.
def records (news : ValueNews was now) (name : String) : List (Record Severity) :=
  if news.fresh = [] ∧ news.lost = [] ∧ news.renumbered = [] then []
  else
    ⟨.chg, name ++ ": +" ++ toString news.fresh.length ++ " -" ++ toString news.lost.length ++
      " ~" ++ toString news.renumbered.length ++ " values"⟩ ::
      news.fresh.map freshRecord ++ news.lost.map lostRecord ++
        news.renumbered.map renumberedRecord

-- The names of the values with a record each.
def names (news : ValueNews was now) : List String :=
  news.fresh.map Prod.fst ++ news.lost.map Prod.fst ++ news.renumbered.map Prod.fst

theorem names_nodup (news : ValueNews was now) : news.names.Nodup := by
  have hlost := news.fresh_inOrder.names_disjoint news.lost_inOrder
    fun name n m hfresh hlost => by
      cases hfresh.2.symm.trans hlost.1
  have hfresh := news.fresh_inOrder.names_disjoint news.renumbered_inOrder
    fun name n ns hfresh hrenumbered => by
      cases hfresh.2.symm.trans hrenumbered.1
  have hrenumbered := news.lost_inOrder.names_disjoint news.renumbered_inOrder
    fun name n ns hlost hrenumbered => by
      cases hlost.2.symm.trans hrenumbered.2.1
  rw [names, List.nodup_append', List.nodup_append', List.disjoint_append_left]
  exact ⟨⟨news.fresh_inOrder.names_nodup, news.lost_inOrder.names_nodup, hlost⟩,
    news.renumbered_inOrder.names_nodup, hfresh, hrenumbered⟩

theorem fresh_length (news : ValueNews was now) :
    news.fresh.length = (valueNames now \ valueNames was).card := by
  refine news.fresh_inOrder.length_eq_card fun name => ?_
  rw [Finset.mem_sdiff, mem_valueNames_iff, not_mem_valueNames_iff, exists_and_right]

theorem lost_length (news : ValueNews was now) :
    news.lost.length = (valueNames was \ valueNames now).card := by
  refine news.lost_inOrder.length_eq_card fun name => ?_
  rw [Finset.mem_sdiff, mem_valueNames_iff, not_mem_valueNames_iff, exists_and_right]

theorem renumbered_length (news : ValueNews was now) :
    news.renumbered.length = (renumberedNames was now).card := by
  refine news.renumbered_inOrder.length_eq_card fun name => ?_
  rw [renumberedNames, Finset.mem_filter, Finset.mem_inter, mem_valueNames_iff, mem_valueNames_iff]
  constructor
  · rintro ⟨⟨⟨a, ha⟩, b, hb⟩, hne⟩
    exact ⟨(a, b), ha, hb, fun hsame => hne (ha.trans ((congrArg some hsame).trans hb.symm))⟩
  · rintro ⟨⟨a, b⟩, ha, hb, hne⟩
    refine ⟨⟨⟨a, ha⟩, b, hb⟩, fun hsame => hne ?_⟩
    rw [ha, hb] at hsame
    exact Option.some.inj hsame

end ValueNews

-- What a comparison finds of the values of an enum.
def valueNews (was now : Enum) : ValueNews was now where
  fresh := onlyIn now.values was.values
  lost := onlyIn was.values now.values
  renumbered := (common was.values now.values).filter fun (_, a, b) => a ≠ b
  fresh_inOrder := inOrder_onlyIn now.values was.values
  lost_inOrder := inOrder_onlyIn was.values now.values
  renumbered_inOrder := inOrder_filter_common fun _ _ _ => mem_renumbered_iff

theorem map_record_valueChanges (name : String) (was now : Enum) :
    (valueChanges name was now).map Change.record = (valueNews was now).records name := by
  have hfresh (entry : String × Int64) :
      (Change.newValue entry.1 entry.2).record = ValueNews.freshRecord entry := rfl
  have hlost (entry : String × Int64) :
      (Change.goneValue entry.1 entry.2).record = ValueNews.lostRecord entry := rfl
  have hrenumbered (entry : String × Int64 × Int64) :
      (Change.renumbered entry.1 entry.2.1 entry.2.2).record =
        ValueNews.renumberedRecord entry := by
    simp [Change.record, Change.severity, Change.message, Change.arrow,
      ValueNews.renumberedRecord, String.append_assoc]
  simp only [valueChanges, ValueNews.records, Bool.and_eq_true, List.isEmpty_iff, and_assoc]
  rw [apply_ite (List.map Change.record)]
  simp only [List.map_nil, List.map_append, List.map_cons, List.map_map, Function.comp_def, hfresh,
    hlost, hrenumbered]
  rfl

-- A changed type of the values is told whether or not a value changed.
def storageRecords (name : String) (was now : Enum) : List (Record Severity) :=
  if was.underlyingType = now.underlyingType then []
  else [⟨.crit, name ++ ": storage type " ++ was.underlyingType ++ " -> " ++ now.underlyingType⟩]

theorem map_record_storageChange (name : String) (was now : Enum) :
    (storageChange name was now).map Change.record = storageRecords name was now := by
  rw [storageChange, storageRecords, apply_ite (List.map Change.record)]
  simp [Change.record, Change.severity, Change.message, Change.arrow, String.append_assoc]

-- How the enums changed: those that only one side has, and what became of the others.
structure EnumNews (old new : NameMap Enum) where
  fresh : List (String × Enum)
  lost : List (String × Enum)
  kept : List (String × Enum × Enum)
  values : (was now : Enum) → ValueNews was now
  fresh_inOrder : InOrder (fun name enum =>
    new.get? name = some enum ∧ old.get? name = none) fresh
  lost_inOrder : InOrder (fun name enum =>
    old.get? name = some enum ∧ new.get? name = none) lost
  kept_inOrder : InOrder (fun name enums =>
    old.get? name = some enums.1 ∧ new.get? name = some enums.2) kept

namespace EnumNews

variable {old new : NameMap Enum}

def keptRecords (news : EnumNews old new) (entry : String × Enum × Enum) :
    List (Record Severity) :=
  storageRecords entry.1 entry.2.1 entry.2.2 ++ (news.values entry.2.1 entry.2.2).records entry.1

def records (news : EnumNews old new) : List (Record Severity) :=
  counted .add " new enums" (news.fresh.map fun (name, enum) =>
      "  + " ++ name ++ " (" ++ toString (valueNames enum).card ++ " values)") ++
    counted .del " removed enums" (news.lost.map fun (name, _) => "  - " ++ name) ++
    news.kept.flatMap news.keptRecords

end EnumNews

-- What it finds of all enums.
def enumNews (old new : NameMap Enum) : EnumNews old new where
  fresh := onlyIn new old
  lost := onlyIn old new
  kept := common old new
  values := valueNews
  fresh_inOrder := inOrder_onlyIn new old
  lost_inOrder := inOrder_onlyIn old new
  kept_inOrder := inOrder_common old new

theorem card_valueNames (enum : Enum) : (valueNames enum).card = enum.values.size := by
  have hnodup : enum.values.names.Nodup := NameMap.names_nodup _
  rw [valueNames, List.toFinset_card_of_nodup hnodup, NameMap.names, List.length_map]
  rfl

theorem map_record_compareEnums (old new : NameMap Enum) :
    (compareEnums old new).map Change.record = (enumNews old new).records := by
  have hadded (entry : String × Enum) :
      (Change.newEnum entry.1 entry.2.values.size).record =
        ⟨.info, "  + " ++ entry.1 ++ " (" ++ toString (valueNames entry.2).card ++ " values)"⟩ := by
    rw [card_valueNames]
    rfl
  have hkept (entry : String × Enum × Enum) :
      (storageChange entry.1 entry.2.1 entry.2.2 ++
        valueChanges entry.1 entry.2.1 entry.2.2).map Change.record =
          (enumNews old new).keptRecords entry := by
    rw [List.map_append, map_record_storageChange, map_record_valueChanges]
    rfl
  rw [compareEnums, List.map_append, map_record_addedAndRemoved hadded, List.map_flatMap]
  simp only [hkept]
  rfl

-- Each difference is reported once. The enums that only one side has come first, and then for each of
-- the others its type, if it changed, and its values, if some did, with as many lines as are counted.
theorem compareEnums_reported (old new : NameMap Enum) :
    ∃ news : EnumNews old new,
      (compareEnums old new).map Change.record = news.records ∧
      (∀ was now, (news.values was now).names.Nodup) ∧
      (∀ name was now, (news.values was now).records name = [] ↔ was.values = now.values) ∧
      ∀ was now, (news.values was now).fresh.length = (valueNames now \ valueNames was).card ∧
        (news.values was now).lost.length = (valueNames was \ valueNames now).card ∧
        (news.values was now).renumbered.length = (renumberedNames was now).card := by
  refine ⟨enumNews old new, map_record_compareEnums old new,
    fun was now => ValueNews.names_nodup _, fun name was now => ?_, fun was now =>
      ⟨ValueNews.fresh_length _, ValueNews.lost_length _, ValueNews.renumbered_length _⟩⟩
  have hrecords := List.map_eq_nil_iff (f := Change.record) (l := valueChanges name was now)
  rw [map_record_valueChanges] at hrecords
  exact hrecords.trans valueChanges_eq_nil_iff

end TypeAtlas.Diff
