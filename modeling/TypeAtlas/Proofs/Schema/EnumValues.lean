import TypeAtlas.Proofs.Dump.WrittenEnum
import TypeAtlas.Proofs.NameMap
import TypeAtlas.Schema.Survey

namespace TypeAtlas.Dump

namespace WrittenInteger

variable {integer : WrittenInteger}

theorem value?_eq_some_iff {value : Int64} :
    integer.value? = some value ↔ integer.value = value.toInt := by
  rw [value?]
  constructor
  · intro h
    split at h
    · rename_i hfits
      cases h
      exact (Int64.toInt_ofInt_of_le hfits.1 hfits.2).symm
    · cases h
  · intro h
    have hfits : FitsInt64 integer.value := by
      rw [h]
      exact ⟨value.le_toInt, value.toInt_lt⟩
    rw [if_pos hfits, h, Int64.ofInt_toInt]

theorem value?_eq_none_iff : integer.value? = none ↔ ¬FitsInt64 integer.value := by
  rw [value?]
  split
  · rename_i hfits
    exact iff_of_false (Option.some_ne_none _) (not_not_intro hfits)
  · rename_i hfits
    exact iff_of_true rfl hfits

end WrittenInteger

namespace WrittenEnum

-- The last integer written for a name of those that a schema can hold.
def GivesLast (written : WrittenEnum) (name : String) (value : Int64) : Prop :=
  ∃ front constant back, written.constants = front ++ constant :: back ∧
    String.ofList constant.name = name ∧ constant.integer.value = value.toInt ∧
    ∀ later ∈ back, String.ofList later.name = name → ¬FitsInt64 later.integer.value

end WrittenEnum

end TypeAtlas.Dump

namespace TypeAtlas.Schema

open Dump

-- The names of some constants with the integers that a schema can hold.
def valuesOf (constants : List WrittenConstant) : List (String × Int64) :=
  constants.filterMap fun constant =>
    constant.integer.value?.map fun value => (String.ofList constant.name, value)

theorem read?_text (declared : Option String) (written : WrittenEnum) :
    Enum.read? declared written.text =
      if valuesOf written.constants = [] then none
      else some ⟨(written.storageType?.or declared).getD "int",
        .ofList (valuesOf written.constants)⟩ := by
  have hvalues : (written.constants.map WrittenConstant.member).filterMap (fun member =>
      member.value.map fun value => (member.name, value)) = valuesOf written.constants := by
    rw [List.filterMap_map]
    rfl
  rw [Enum.read?, Enum.ofBody?, written.enumMembers_text, written.storage?_text, hvalues,
    ← Option.or_eq_orElse]
  exact if_congr NameMap.isEmpty_ofList_iff rfl rfl

theorem valuesOf_eq_nil_iff {constants : List WrittenConstant} :
    valuesOf constants = [] ↔ ∀ constant ∈ constants, ¬FitsInt64 constant.integer.value := by
  simp only [valuesOf, List.filterMap_eq_nil_iff, Option.map_eq_none_iff,
    WrittenInteger.value?_eq_none_iff]

theorem get?_valuesOf_iff {written : WrittenEnum} {name : String} {value : Int64} :
    (NameMap.ofList (valuesOf written.constants)).get? name = some value ↔
      written.GivesLast name value := by
  rw [valuesOf, NameMap.get?_ofList_filterMap_last]
  simp only [WrittenInteger.value?_eq_some_iff, WrittenInteger.value?_eq_none_iff,
    WrittenEnum.GivesLast]

-- An enum is read as it was written: each name has the last integer written for it that fits 64 bits,
-- and those that do not fit leave all others alone. The storage is the one written in the body, else
-- the declared one, else int.
theorem enum_of_written (declared : Option String) (written : WrittenEnum) :
    (Enum.read? declared written.text = none ↔
      ∀ constant ∈ written.constants, ¬FitsInt64 constant.integer.value) ∧
    ∀ enum, Enum.read? declared written.text = some enum →
      enum.underlyingType = (written.storageType?.or declared).getD "int" ∧
        ∀ name value, enum.values.get? name = some value ↔ written.GivesLast name value := by
  rw [read?_text, ← valuesOf_eq_nil_iff]
  split
  · rename_i hnone
    exact ⟨iff_of_true rfl hnone, nofun⟩
  · rename_i hsome
    refine ⟨iff_of_false (Option.some_ne_none _) hsome, ?_⟩
    rintro enum ⟨⟩
    exact ⟨rfl, fun name value => get?_valuesOf_iff⟩

-- Both ends of the range are integers of a schema, and the one above it is none, so that the first
-- integer of its name stays.
def lowConstant : WrittenConstant where
  gap := "\n\t".toList
  type := "Squad.Rank".toList
  name := "Low".toList
  integer := ⟨true, 1, 9223372036854775808⟩
  blank := by decide
  typed := by decide
  isName := by decide

example : lowConstant.text .feed =
    "\n\tpublic const Squad.Rank Low = -09223372036854775808;\n".toList := by decide +kernel

def topConstant : WrittenConstant :=
  { lowConstant with
    name := "Top".toList
    integer := ⟨false, 0, 9223372036854775807⟩
    isName := by decide }

def hugeConstant : WrittenConstant :=
  { lowConstant with integer := ⟨false, 0, 9223372036854775808⟩ }

def rankEnum : WrittenEnum where
  lineBreak := .feed
  before := [lowConstant]
  storage := some ⟨['\t'], "long".toList, by decide, by decide⟩
  after := [topConstant, hugeConstant]

theorem rankEnum_values :
    ∃ enum, Enum.read? (some "byte") rankEnum.text = some enum ∧ enum.underlyingType = "long" ∧
      enum.values.get? "Low" = some Int64.minValue ∧ enum.values.get? "Top" = some Int64.maxValue := by
  obtain ⟨hnone, hsome⟩ := enum_of_written (some "byte") rankEnum
  have hread : Enum.read? (some "byte") rankEnum.text ≠ none := by
    intro h
    exact hnone.mp h lowConstant (by simp [WrittenEnum.constants, rankEnum]) (by decide)
  obtain ⟨enum, henum⟩ := Option.ne_none_iff_exists'.mp hread
  obtain ⟨htype, hvalues⟩ := hsome enum henum
  have hlow : ∀ later ∈ [topConstant, hugeConstant],
      String.ofList later.name = "Low" → ¬FitsInt64 later.integer.value := by
    simp [topConstant, hugeConstant, lowConstant, WrittenInteger.value, FitsInt64]
  have htop : ∀ later ∈ [hugeConstant],
      String.ofList later.name = "Top" → ¬FitsInt64 later.integer.value := by
    simp [hugeConstant, lowConstant, WrittenInteger.value, FitsInt64]
  refine ⟨enum, henum, htype, (hvalues _ _).mpr ?_, (hvalues _ _).mpr ?_⟩
  · exact ⟨[], lowConstant, [topConstant, hugeConstant], rfl, rfl, by decide, hlow⟩
  · exact ⟨[lowConstant], topConstant, [hugeConstant], rfl, rfl, by decide, htop⟩

end TypeAtlas.Schema
