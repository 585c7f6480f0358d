import TypeAtlas.Json.Record
import TypeAtlas.Proofs.Json.Printer
import TypeAtlas.Proofs.NameMap

namespace TypeAtlas.Json

-- Digits are taken up to the last as long as the number they make fits 64 bits.
theorem takeUp_of_numberFrom? {m total : Nat} {digits : List Char}
    (h : Text.numberFrom? Text.decimalValue? 10 m digits = some total)
    (hsize : total < UInt64.size) : takeUp m digits = (total, []) := by
  induction digits generalizing m with
  | nil =>
      obtain rfl : m = total := Option.some.inj h
      rfl
  | cons c rest ih =>
      simp only [Text.numberFrom?] at h
      split at h
      · rename_i d hd
        have hle := Text.le_of_numberFrom? (by decide) h
        have hfits : m * 10 + d < UInt64.size := Nat.lt_of_le_of_lt hle hsize
        simp only [takeUp, hd, Option.getD_some, if_pos hfits]
        exact ih h
      · cases h

-- A whole number that fits 64 bits, signed or unsigned, keeps its value.
theorem Numeral.value?_ofInt {n : Int} (hlow : Int64.minValue.toInt ≤ n)
    (hhigh : n < UInt64.size) : (Numeral.ofInt n).value? = some (.whole n) := by
  have hmin : Int64.minValue.toInt = -9223372036854775808 := rfl
  have hsize : UInt64.size = 18446744073709551616 := rfl
  have htake : takeUp 0 (Decimal.digits n.natAbs) = (n.natAbs, []) :=
    takeUp_of_numberFrom? (Text.numberFrom?_decimal n.natAbs) (by omega)
  rw [Numeral.value?]
  by_cases hneg : n < 0
  · have hzero : n.natAbs ≠ 0 := by omega
    have habs : -(n.natAbs : Int) = n := by omega
    simp only [Numeral.ofInt, htake, hneg, habs]
    simpa [hzero] using hlow
  · have habs : (n.natAbs : Int) = n := by omega
    simp only [Numeral.ofInt, htake, hneg, habs]
    rfl

-- Digits without a sign, a point or an exponent write a whole number.
theorem Numeral.value?_digits {n : Nat} {digits : List Char}
    (hdigits : Text.decimalNumber? digits = some n) (hsize : n < UInt64.size) :
    (Numeral.mk false digits [] none).value? = some (.whole n) := by
  have hfrom : Text.numberFrom? Text.decimalValue? 10 0 digits = some n := by
    rw [Text.decimalNumber?, Text.number?] at hdigits
    split at hdigits
    · cases hdigits
    · exact hdigits
  simp only [Numeral.value?, takeUp_of_numberFrom? hfrom hsize]
  rfl

namespace Reader

-- The reader gets back what is written as a value, in which no number is rounded.
structure Inverts {α : Type} (read : Reader α) (value : α → Value) : Prop where
  exact (x : α) : (value x).isExact = true
  read (x : α) : read (value x).node = .ok x

theorem whole_ofInt {low high n : Int} (hlow : low ≤ n) (hhigh : n ≤ high)
    (hmin : Int64.minValue.toInt ≤ n) (hmax : n < UInt64.size) :
    whole low high (.num (.ofInt n)) = .ok n := by
  simp [whole, Numeral.value?_ofInt hmin hmax, hlow, hhigh]

theorem int64_inverts : Inverts int64 fun n => .whole n.toInt where
  exact _ := rfl
  read n := by
    have hlow := Int64.minValue_le_toInt n
    have hhigh := Int64.toInt_lt n
    have hwhole := whole_ofInt hlow (Int64.toInt_le n) hlow (Int.lt_trans hhigh (by decide))
    simp only [int64, Value.node, hwhole, Except.map, Int64.ofInt_toInt]

theorem uint64_inverts : Inverts uint64 fun n => .whole n.toNat where
  exact _ := rfl
  read n := by
    have hlt := n.toNat_lt_size
    have hlow : (0 : Int) ≤ n.toNat := Int.natCast_nonneg _
    have hhigh : (n.toNat : Int) ≤ UInt64.size - 1 := by omega
    have hmin : Int64.minValue.toInt ≤ n.toNat := Int.le_trans (by decide) hlow
    have hwhole := whole_ofInt hlow hhigh hmin (by omega)
    simp only [uint64, Value.node, hwhole, Except.map, Int.toNat_natCast, UInt64.ofNat_toNat]

theorem str_inverts : Inverts str .str :=
  ⟨fun _ => rfl, fun _ => rfl⟩

theorem bool_inverts : Inverts bool .bool :=
  ⟨fun _ => rfl, fun _ => rfl⟩

theorem optional_str_inverts : Inverts (optional str) .text? where
  exact text := by cases text <;> rfl
  read text := by cases text <;> rfl

theorem mapM_map_ok {α β : Type} {read : β → Except Problem α} {f : α → β}
    (h : ∀ x, read (f x) = .ok x) (xs : List α) : (xs.map f).mapM read = .ok xs := by
  induction xs with
  | nil => rfl
  | cons x rest ih =>
      rw [List.map_cons, List.mapM_cons, h x, ih]
      rfl

variable {α : Type} {read : Reader α} {value : α → Value}

theorem list_inverts (h : Inverts read value) :
    Inverts (list read) fun xs => .arr (xs.map value) where
  exact xs := by
    rw [Value.isExact, Value.areExact_eq_all, List.all_map, List.all_eq_true]
    exact fun x _ => h.exact x
  read xs := by
    have hread := mapM_map_ok (f := fun x => (value x).node) h.read xs
    rw [Value.node, Value.nodes_eq_map, List.map_map]
    simp only [list, Ending.finish, Function.comp_def, hread]
    rfl

theorem map_inverts (h : Inverts read value) :
    Inverts (Reader.map read) fun map => .obj (map.entries.map fun (name, x) => (name, value x)) where
  exact map := by
    rw [Value.isExact, Value.areExactMembers_eq_all, List.all_map, List.all_eq_true]
    exact fun entry _ => h.exact entry.2
  read map := by
    have hmember (entry : String × α) :
        readMember read (some entry.1, (value entry.2).node) = .ok entry := by
      rw [readMember, keyText, h.read]
      rfl
    have hread := mapM_map_ok (f := fun entry : String × α => (some entry.1, (value entry.2).node))
      hmember map.entries
    rw [Value.node, Value.memberNodes_eq_map, List.map_map]
    simp only [Reader.map, Ending.finish, Function.comp_def, hread]
    exact congrArg Except.ok (NameMap.ofList_entries map)

-- The written text of a value is read back.
theorem Inverts.decode_pretty (h : Inverts read value) (x : α) :
    (Document.read (value x).pretty.toList).decode read = .ok x := by
  rw [read_pretty _ (h.exact x), Document.decode, h.read]
  rfl

end Reader

end TypeAtlas.Json
