import TypeAtlas.Decimal.Shortest

namespace TypeAtlas.Decimal

def digits (n : Nat) : List Char :=
  Nat.toDigits 10 n

def signed (negative : Bool) (text : List Char) : String :=
  String.ofList (if negative then '-' :: text else text)

-- Digits with a point after the given count of them, and a zero for a part that has none.
def pointed (whole : Int) (ds : List Char) : List Char :=
  if whole ≤ 0 then '0' :: '.' :: List.replicate (-whole).toNat '0' ++ ds
  else if ds.length ≤ whole.toNat then
    ds ++ List.replicate (whole.toNat - ds.length) '0' ++ ['.', '0']
  else ds.take whole.toNat ++ '.' :: ds.drop whole.toNat

-- Digits with a point after the first of them, if there are more.
def leading : List Char → List Char
  | d :: e :: rest => d :: '.' :: e :: rest
  | ds => ds

def exponentText (e : Int) : List Char :=
  (if e < 0 then '-' else '+') :: digits e.natAbs

-- The shortest digits. Numbers from 0.00001 up to below 10 ^ 16 have a point and at least one digit
-- on each side of it; the others have an exponent with its sign.
def shortestText (x : Float) : String :=
  let b := Binary.ofFloat x
  let s := shortest b
  if s.coefficient = 0 then signed b.negative ['0', '.', '0']
  else
    let ds := (digits s.coefficient).reverse.dropWhile (· == '0') |>.reverse
    let exponent := s.exponent + (digits s.coefficient).length - 1
    if -5 ≤ exponent && exponent < 16 then signed b.negative (pointed (exponent + 1) ds)
    else signed b.negative (leading ds ++ 'e' :: exponentText exponent)

-- One digit before the point and so many after it, and an exponent. A half goes to the even digit.
def exponentForm (places : Nat) (x : Float) : String :=
  let b := Binary.ofFloat x
  if b.mantissa = 0 then
    signed b.negative ('0' :: '.' :: List.replicate places '0' ++ ['e', '0'])
  else
    let magnitude := b.ratio.magnitude
    let rounded := (b.ratio.scale 10 (places - magnitude)).round
    let (coefficient, exponent) :=
      if rounded = Nat.pow 10 (places + 1) then (Nat.pow 10 places, magnitude + 1)
      else (rounded, magnitude)
    signed b.negative (leading (digits coefficient) ++ 'e' ::
      (if exponent < 0 then '-' :: digits exponent.natAbs else digits exponent.natAbs))

-- The nearest whole number, a half going to the even one.
def wholeForm (x : Float) : String :=
  let b := Binary.ofFloat x
  signed b.negative (digits b.ratio.round)

end TypeAtlas.Decimal
