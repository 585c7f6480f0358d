namespace TypeAtlas.Decimal

-- The magnitude `mantissa * 2 ^ exponent` of a finite number, and its sign.
structure Binary where
  negative : Bool
  mantissa : Nat
  exponent : Int
  -- Whether the numbers right below are twice as close as those right above.
  narrowBelow : Bool

-- The fraction takes 52 bits.
def fractions : Nat := 0x10000000000000

-- The exponent takes 11 bits above the fraction, and the sign is the bit above both.
def exponents : Nat := 0x800

def Binary.ofBits (bits : Nat) : Binary :=
  let fraction := bits % fractions
  let biased := bits / fractions % exponents
  let negative := decide (fractions * exponents ≤ bits)
  if biased = 0 then ⟨negative, fraction, -1074, false⟩
  else ⟨negative, fractions + fraction, (biased : Int) - 1075, decide (fraction = 0 ∧ 1 < biased)⟩

def Binary.ofFloat (x : Float) : Binary :=
  ofBits x.toBits.toNat

-- A non-negative quotient. The denominator is positive wherever one is made.
structure Ratio where
  num : Nat
  den : Nat

namespace Ratio

-- The quotient times a power of the base.
def scale (r : Ratio) (base : Nat) (exponent : Int) : Ratio :=
  if 0 ≤ exponent then ⟨r.num * Nat.pow base exponent.toNat, r.den⟩
  else ⟨r.num, r.den * Nat.pow base (-exponent).toNat⟩

def le (r s : Ratio) : Bool :=
  r.num * s.den ≤ s.num * r.den

def lt (r s : Ratio) : Bool :=
  r.num * s.den < s.num * r.den

-- The number of decimal digits of a natural number.
def width (n : Nat) : Nat :=
  (Nat.toDigits 10 n).length

-- The exponent of the leading decimal digit of a positive quotient.
def magnitude (r : Ratio) : Int :=
  if r.den ≤ r.num then (width (r.num / r.den) : Int) - 1
  else -(width ((r.den + r.num - 1) / r.num - 1) : Int)

-- The nearest natural number, and of two the even one.
def round (r : Ratio) : Nat :=
  let floor := r.num / r.den
  let twice := 2 * (r.num % r.den)
  if twice < r.den then floor
  else if r.den < twice then floor + 1
  else floor + floor % 2

end Ratio

def Binary.ratio (x : Binary) : Ratio :=
  Ratio.scale ⟨x.mantissa, 1⟩ 2 x.exponent

end TypeAtlas.Decimal
