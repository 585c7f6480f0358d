namespace TypeAtlas.Text

def decimalValue? (c : Char) : Option Nat :=
  if '0' ≤ c && c ≤ '9' then some (c.toNat - '0'.toNat) else none

def hexValue? (c : Char) : Option Nat :=
  if '0' ≤ c && c ≤ '9' then some (c.toNat - '0'.toNat)
  else if 'a' ≤ c && c ≤ 'f' then some (c.toNat - 'a'.toNat + 10)
  else if 'A' ≤ c && c ≤ 'F' then some (c.toNat - 'A'.toNat + 10)
  else none

def isHex (c : Char) : Bool :=
  (hexValue? c).isSome

-- The number that digits write after a number, if each of them has a value.
def numberFrom? (value? : Char → Option Nat) (base : Nat) (n : Nat) : List Char → Option Nat
  | [] => some n
  | c :: rest =>
    match value? c with
    | some d => numberFrom? value? base (n * base + d) rest
    | none => none

-- The number that one or more digits write.
def number? (value? : Char → Option Nat) (base : Nat) (digits : List Char) : Option Nat :=
  if digits.isEmpty then none else numberFrom? value? base 0 digits

def hexNumber? (digits : List Char) : Option Nat :=
  number? hexValue? 16 digits

def decimalNumber? (digits : List Char) : Option Nat :=
  number? decimalValue? 10 digits

-- A number as at least so many hexadecimal digits.
def hexPadded (width n : Nat) : List Char :=
  let digits := Nat.toDigits 16 n
  List.replicate (width - digits.length) '0' ++ digits

end TypeAtlas.Text
