import Mathlib.Logic.Basic
import TypeAtlas.Validation.Defect

namespace TypeAtlas.Validation

open Json (Value)

-- The types of whole numbers, each with its width in bits, and the other types with a shape.
def unsignedTypes : List (String × Nat) :=
  [("byte", 8), ("Byte", 8), ("ushort", 16), ("UInt16", 16), ("uint", 32), ("UInt32", 32),
    ("ulong", 64), ("UInt64", 64)]

def signedTypes : List (String × Nat) :=
  [("sbyte", 8), ("SByte", 8), ("short", 16), ("Int16", 16), ("int", 32), ("Int32", 32),
    ("long", 64), ("Int64", 64)]

def floatTypes : List String :=
  ["float", "Single", "double", "Double"]

def boolTypes : List String :=
  ["bool", "Boolean"]

-- The values that a field of a primitive type cannot have. Types by other names have all values.
inductive Defective (thresholds : Thresholds) (type : String) (value : Value) : Prop
  | unsigned {bits : Nat} : (type, bits) ∈ unsignedTypes →
      (∀ x : BitVec bits, value ≠ .whole x.toNat) → Defective thresholds type value
  | signed {bits : Nat} : (type, bits) ∈ signedTypes →
      (∀ x : BitVec bits, value ≠ .whole x.toInt) → Defective thresholds type value
  | noNumber : type ∈ floatTypes → (∀ n, value ≠ .whole n) → (∀ x, value ≠ .float x) →
      Defective thresholds type value
  -- A whole number counts as the float nearest to it.
  | tooLarge {x : Float} : type ∈ floatTypes → float? value = some x →
      x.abs > thresholds.garbageFloatMagnitude → Defective thresholds type value
  | noBool : type ∈ boolTypes → (∀ b, value ≠ .bool b) → Defective thresholds type value

inductive HasShape (type : String) : Shape → Prop
  | unsigned {bits : Nat} : (type, bits) ∈ unsignedTypes → HasShape type (unsignedShape bits)
  | signed {bits : Nat} : (type, bits) ∈ signedTypes → HasShape type (signedShape bits)
  | float : type ∈ floatTypes → HasShape type .float
  | bool : type ∈ boolTypes → HasShape type .bool

theorem hasShape_of_mem_shapes : ∀ entry ∈ shapes, ∀ type ∈ entry.1, HasShape type entry.2 := by
  simp only [shapes, List.forall_mem_cons, List.not_mem_nil, false_imp_iff, implies_true, and_true]
  refine ⟨⟨.unsigned ?_, .unsigned ?_⟩, ⟨.signed ?_, .signed ?_⟩, ⟨.signed ?_, .signed ?_⟩,
    ⟨.unsigned ?_, .unsigned ?_⟩, ⟨.signed ?_, .signed ?_⟩, ⟨.unsigned ?_, .unsigned ?_⟩,
    ⟨.signed ?_, .signed ?_⟩, ⟨.unsigned ?_, .unsigned ?_⟩,
    ⟨.float ?_, .float ?_, .float ?_, .float ?_⟩, ⟨.bool ?_, .bool ?_⟩⟩ <;> decide

theorem ofType?_eq_some_iff {type : String} {shape : Shape} :
    Shape.ofType? type = some shape ↔ HasShape type shape := by
  constructor
  · intro h
    obtain ⟨entry, hfind, rfl⟩ := Option.map_eq_some_iff.mp h
    have hname : type ∈ entry.1 := by simpa using List.find?_some hfind
    exact hasShape_of_mem_shapes entry (List.mem_of_find?_eq_some hfind) type hname
  · have hunsigned : ∀ entry ∈ unsignedTypes,
        Shape.ofType? entry.1 = some (unsignedShape entry.2) := by decide +kernel
    have hsigned : ∀ entry ∈ signedTypes,
        Shape.ofType? entry.1 = some (signedShape entry.2) := by decide +kernel
    have hfloat : ∀ name ∈ floatTypes, Shape.ofType? name = some .float := by decide +kernel
    have hbool : ∀ name ∈ boolTypes, Shape.ofType? name = some .bool := by decide +kernel
    intro h
    cases h with
    | unsigned hmem => exact hunsigned _ hmem
    | signed hmem => exact hsigned _ hmem
    | float hmem => exact hfloat _ hmem
    | bool hmem => exact hbool _ hmem

-- Each type of whole numbers takes just what its bits can hold.
theorem unsigned_range_iff {bits : Nat} {n : Int} :
    0 ≤ n ∧ n ≤ Nat.pow 2 bits - 1 ↔ ∃ x : BitVec bits, n = x.toNat := by
  constructor
  · rintro ⟨hlow, hhigh⟩
    have hlt : n.toNat < 2 ^ bits := by
      have hpow : (Nat.pow 2 bits : Int) = ((2 ^ bits : Nat) : Int) := rfl
      omega
    refine ⟨BitVec.ofNat bits n.toNat, ?_⟩
    rw [BitVec.toNat_ofNat, Nat.mod_eq_of_lt hlt, Int.toNat_of_nonneg hlow]
  · rintro ⟨x, rfl⟩
    have hlt : x.toNat < Nat.pow 2 bits := x.isLt
    omega

theorem signed_range_iff {bits : Nat} (hbits : 0 < bits) {n : Int} :
    -(Nat.pow 2 (bits - 1) : Int) ≤ n ∧ n ≤ Nat.pow 2 (bits - 1) - 1 ↔
      ∃ x : BitVec bits, n = x.toInt := by
  have hpow : ((Nat.pow 2 (bits - 1) : Nat) : Int) = 2 ^ (bits - 1) := Int.natCast_pow 2 (bits - 1)
  rw [hpow]
  constructor
  · rintro ⟨hlow, hhigh⟩
    exact ⟨BitVec.ofInt bits n, (BitVec.toInt_ofInt_eq_self hbits hlow (by omega)).symm⟩
  · rintro ⟨x, rfl⟩
    exact ⟨x.le_toInt, Int.le_sub_one_of_lt BitVec.toInt_lt⟩

theorem problemOfShape?_integer_eq_none_iff {thresholds : Thresholds} {type : String}
    {value : Value} {low high : Int} :
    problemOfShape? thresholds type value (.integer low high) = none ↔
      ∃ n, value = .whole n ∧ low ≤ n ∧ n ≤ high := by
  cases value <;> simp [problemOfShape?]

variable {thresholds : Thresholds} {type : String} {value : Value}

theorem problemOfShape?_unsigned_ne_none_iff {bits : Nat} :
    problemOfShape? thresholds type value (unsignedShape bits) ≠ none ↔
      ∀ x : BitVec bits, value ≠ .whole x.toNat := by
  rw [ne_eq, unsignedShape, problemOfShape?_integer_eq_none_iff]
  simp only [unsigned_range_iff]
  constructor
  · intro hnone x hvalue
    exact hnone ⟨_, hvalue, x, rfl⟩
  · rintro hnone ⟨n, hvalue, x, rfl⟩
    exact hnone x hvalue

theorem problemOfShape?_signed_ne_none_iff {bits : Nat} (hbits : 0 < bits) :
    problemOfShape? thresholds type value (signedShape bits) ≠ none ↔
      ∀ x : BitVec bits, value ≠ .whole x.toInt := by
  rw [ne_eq, signedShape, problemOfShape?_integer_eq_none_iff]
  simp only [signed_range_iff hbits]
  constructor
  · intro hnone x hvalue
    exact hnone ⟨_, hvalue, x, rfl⟩
  · rintro hnone ⟨n, hvalue, x, rfl⟩
    exact hnone x hvalue

theorem problemOfShape?_bool_ne_none_iff :
    problemOfShape? thresholds type value .bool ≠ none ↔ ∀ b, value ≠ .bool b := by
  cases value <;> simp [problemOfShape?]

theorem problemOfShape?_float_ne_none_iff :
    problemOfShape? thresholds type value .float ≠ none ↔
      float? value = none ∨ ∃ x, float? value = some x ∧
        x.abs > thresholds.garbageFloatMagnitude := by
  rw [problemOfShape?]
  cases float? value with
  | none => simp
  | some x => simp

theorem float?_eq_none_iff :
    float? value = none ↔ (∀ n, value ≠ .whole n) ∧ ∀ x, value ≠ .float x := by
  cases value <;> simp [float?]

theorem pos_of_mem_signedTypes : ∀ entry ∈ signedTypes, 0 < entry.2 := by decide

theorem problem?_ne_none_iff :
    problem? thresholds type value ≠ none ↔ Defective thresholds type value := by
  have hshape : problem? thresholds type value ≠ none ↔
      ∃ shape, HasShape type shape ∧ problemOfShape? thresholds type value shape ≠ none := by
    simp only [problem?, ne_eq, Option.bind_eq_none_iff, ofType?_eq_some_iff, not_forall,
      exists_prop]
  rw [hshape]
  constructor
  · rintro ⟨shape, htype, hproblem⟩
    cases htype with
    | unsigned hmem => exact .unsigned hmem (problemOfShape?_unsigned_ne_none_iff.mp hproblem)
    | signed hmem =>
        have hbits := pos_of_mem_signedTypes _ hmem
        exact .signed hmem ((problemOfShape?_signed_ne_none_iff hbits).mp hproblem)
    | float hmem =>
        rcases problemOfShape?_float_ne_none_iff.mp hproblem with hnone | ⟨x, hx, hlarge⟩
        · obtain ⟨hwhole, hfloat⟩ := float?_eq_none_iff.mp hnone
          exact .noNumber hmem hwhole hfloat
        · exact .tooLarge hmem hx hlarge
    | bool hmem => exact .noBool hmem (problemOfShape?_bool_ne_none_iff.mp hproblem)
  · intro h
    cases h with
    | unsigned hmem hvalue =>
        exact ⟨_, .unsigned hmem, problemOfShape?_unsigned_ne_none_iff.mpr hvalue⟩
    | signed hmem hvalue =>
        have hbits := pos_of_mem_signedTypes _ hmem
        exact ⟨_, .signed hmem, (problemOfShape?_signed_ne_none_iff hbits).mpr hvalue⟩
    | noNumber hmem hwhole hfloat =>
        have hnone := float?_eq_none_iff.mpr ⟨hwhole, hfloat⟩
        exact ⟨_, .float hmem, problemOfShape?_float_ne_none_iff.mpr (Or.inl hnone)⟩
    | tooLarge hmem hx hlarge =>
        exact ⟨_, .float hmem, problemOfShape?_float_ne_none_iff.mpr (Or.inr ⟨_, hx, hlarge⟩)⟩
    | noBool hmem hvalue => exact ⟨_, .bool hmem, problemOfShape?_bool_ne_none_iff.mpr hvalue⟩

end TypeAtlas.Validation
