import TypeAtlas.Text.Blank
import TypeAtlas.Text.Digits
import TypeAtlas.Text.Read

namespace TypeAtlas.Offset

-- Drops one mark of a hexadecimal number.
def unmarked (text : List Char) : List Char :=
  match text with
  | '0' :: 'x' :: rest => rest
  | '0' :: 'X' :: rest => rest
  | _ => text

-- Drops one plus sign.
def unsigned (text : List Char) : List Char :=
  match text with
  | '+' :: rest => rest
  | _ => text

-- The value of an offset that fits 64 bits.
def parse? (offset : String) : Option UInt64 :=
  match Text.hexNumber? (unsigned (unmarked (Text.trim offset.toList))) with
  | some n => if n < UInt64.size then some (UInt64.ofNat n) else none
  | none => none

-- Offsets are the same if their values are, or, where one has none, their texts.
def same (a b : String) : Bool :=
  match parse? a, parse? b with
  | some x, some y => x == y
  | _, _ => a == b

end TypeAtlas.Offset
