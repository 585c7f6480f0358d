import TypeAtlas.Decimal.Binary

namespace TypeAtlas.Decimal

-- The decimal `coefficient * 10 ^ exponent`.
structure Scaled where
  coefficient : Nat
  exponent : Int
  deriving DecidableEq, Repr

-- The quotients that round to a number; its neighbours' halfway points belong to it if it is even.
structure Rounding where
  low : Ratio
  high : Ratio
  closed : Bool

def Binary.rounding (x : Binary) : Rounding :=
  let below := if x.narrowBelow then 1 else 2
  ⟨Ratio.scale ⟨4 * x.mantissa - below, 1⟩ 2 (x.exponent - 2),
    Ratio.scale ⟨4 * x.mantissa + 2, 1⟩ 2 (x.exponent - 2), decide (x.mantissa % 2 = 0)⟩

def Rounding.holds (i : Rounding) (r : Ratio) : Bool :=
  if i.closed then i.low.le r && r.le i.high else i.low.lt r && r.lt i.high

def Scaled.ratio (s : Scaled) : Ratio :=
  Ratio.scale ⟨s.coefficient, 1⟩ 10 s.exponent

-- A point of the grid of multiples of `10 ^ exponent` that rounds to the number: one of the two
-- around the number, the nearer if both do, the even one if they are equally near.
def Rounding.point? (i : Rounding) (r : Ratio) (exponent : Int) : Option Scaled :=
  let steps := r.scale 10 (-exponent)
  let floor := steps.num / steps.den
  let below : Scaled := ⟨floor, exponent⟩
  let above : Scaled := ⟨floor + 1, exponent⟩
  match i.holds below.ratio, i.holds above.ratio with
  | true, true => some ⟨steps.round, exponent⟩
  | true, false => some below
  | false, true => some above
  | false, false => none

-- Tries grids of rising fineness, so many of them.
def Rounding.search (i : Rounding) (r : Ratio) : Nat → Int → Scaled
  | 0, exponent => ⟨(r.scale 10 (-exponent)).round, exponent⟩
  | tries + 1, exponent =>
    match i.point? r exponent with
    | some point => point
    | none => i.search r tries (exponent - 1)

-- Seventeen digits always suffice.
def shortest (x : Binary) : Scaled :=
  if x.mantissa = 0 then ⟨0, 0⟩
  else x.rounding.search x.ratio 17 x.ratio.magnitude

end TypeAtlas.Decimal
