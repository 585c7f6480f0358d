import TypeAtlas.Text.Digits
import TypeAtlas.Text.Read

namespace TypeAtlas.Json

-- A whole number of 64 bits, signed or unsigned, keeps its value. Every other number is a
-- floating-point number.
inductive Number
  | whole (n : Int)
  | float (x : Float)

structure Exponent where
  negative : Bool
  digits : List Char
  deriving DecidableEq, Repr

-- The parts of a numeral. The fraction has digits if there is one.
structure Numeral where
  negative : Bool
  whole : List Char
  fraction : List Char
  exponent : Option Exponent
  deriving DecidableEq, Repr

-- Takes digits up into a number as long as it fits 64 bits: the number, and the digits left over.
def takeUp (m : Nat) : List Char → Nat × List Char
  | [] => (m, [])
  | c :: rest =>
    let next := m * 10 + (Text.decimalValue? c).getD 0
    if next < UInt64.size then takeUp next rest else (m, c :: rest)

def powerOfTen (e : Nat) : Float :=
  Float.ofScientific 1 false e

-- A number of 64 bits times a power of ten, by one multiplication or division, or by two divisions
-- where one would need a power that is no floating-point number. None above the largest one.
def scaled? (m : Nat) (e : Int) : Option Float :=
  let x := (UInt64.ofNat m).toFloat
  if m = 0 then some x
  else if 308 < e then none
  else if 0 ≤ e then
    let y := x * powerOfTen e.toNat
    if y.isInf then none else some y
  else if -308 ≤ e then some (x / powerOfTen e.natAbs)
  else if -616 ≤ e then some (x / powerOfTen 308 / powerOfTen (e.natAbs - 308))
  else some 0.0

def signed (negative : Bool) (x : Float) : Float :=
  if negative then -x else x

namespace Numeral

-- The power of ten that the exponent asks for, if it fits 32 bits.
def power? : Option Exponent → Option Int
  | none => some 0
  | some e =>
    match Text.decimalNumber? e.digits with
    | some n => if (n : Int) ≤ Int32.maxValue.toInt then some (if e.negative then -n else n) else none
    | none => none

def growing : Option Exponent → Bool
  | some e => !e.negative
  | none => false

-- The floating-point number that a numeral stands for. Digits that do not fit the first 64 bits only
-- count for the size, and not at all behind the point.
def float? (numeral : Numeral) : Option Float :=
  let (m, dropped) := takeUp 0 numeral.whole
  let (m, left) := takeUp m numeral.fraction
  let shift : Int := (dropped.length : Int) + left.length - numeral.fraction.length
  match power? numeral.exponent with
  | some e => (scaled? m (shift + e)).map (signed numeral.negative)
  | none =>
    if m ≠ 0 && growing numeral.exponent then none else some (signed numeral.negative 0.0)

-- The value of a numeral; none if it is above the largest floating-point number.
def value? (numeral : Numeral) : Option Number :=
  let (m, dropped) := takeUp 0 numeral.whole
  if numeral.fraction.isEmpty && numeral.exponent.isNone && dropped.isEmpty then
    if !numeral.negative then some (.whole m)
    else if m = 0 || -(m : Int) < Int64.minValue.toInt then some (.float (-(UInt64.ofNat m).toFloat))
    else some (.whole (-m))
  else numeral.float?.map .float

end Numeral

end TypeAtlas.Json
