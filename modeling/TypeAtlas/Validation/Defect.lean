import TypeAtlas.Json.Record
import TypeAtlas.Thresholds
import TypeAtlas.Validation.Instances

namespace TypeAtlas.Validation

open Json (Value)

-- The values that a primitive type has.
inductive Shape
  | integer (low high : Int)
  | float
  | bool
  deriving DecidableEq, Repr

def signedShape (bits : Nat) : Shape :=
  .integer (-(Nat.pow 2 (bits - 1) : Int)) (Nat.pow 2 (bits - 1) - 1)

def unsignedShape (bits : Nat) : Shape :=
  .integer 0 (Nat.pow 2 bits - 1)

-- Each type has the name of the language and that of its library.
def shapes : List (List String × Shape) :=
  [(["byte", "Byte"], unsignedShape 8), (["sbyte", "SByte"], signedShape 8),
    (["short", "Int16"], signedShape 16), (["ushort", "UInt16"], unsignedShape 16),
    (["int", "Int32"], signedShape 32), (["uint", "UInt32"], unsignedShape 32),
    (["long", "Int64"], signedShape 64), (["ulong", "UInt64"], unsignedShape 64),
    (["float", "Single", "double", "Double"], .float), (["bool", "Boolean"], .bool)]

def Shape.ofType? (type : String) : Option Shape :=
  (shapes.find? fun entry => entry.1.contains type).map Prod.snd

-- What is wrong with a value.
inductive Problem
  | mismatch (type : String) (value : Value)
  -- The number is too large to be anything but a read from a wrong place.
  | garbage (type : String) (x : Float)

def kindName : Value → String
  | .null => "null"
  | .bool _ => "bool"
  | .whole _ => "int"
  | .float _ => "float"
  | .str _ => "str"
  | .arr _ => "list"
  | .obj _ => "dict"

def Problem.message : Problem → String
  | mismatch type value =>
    "expected " ++ type ++ ", got " ++ kindName value ++ "=" ++ value.compact
  | garbage type x =>
    "expected " ++ type ++ ", got " ++ Decimal.exponentForm 3 x ++ " (garbage - wrong offset?)"

-- A number as a floating-point number.
def float? : Value → Option Float
  | .whole n => some (Json.Reader.floatOfWhole n)
  | .float x => some x
  | _ => none

def problemOfShape? (thresholds : Thresholds) (type : String) (value : Value) :
    Shape → Option Problem
  | .integer low high =>
    match value with
    | .whole n => if low ≤ n && n ≤ high then none else some (.mismatch type value)
    | _ => some (.mismatch type value)
  | .float =>
    match float? value with
    | some x => if x.abs > thresholds.garbageFloatMagnitude then some (.garbage type x) else none
    | none => some (.mismatch type value)
  | .bool =>
    match value with
    | .bool _ => none
    | _ => some (.mismatch type value)

-- What is wrong with the value of a field of the given type; types without a shape allow all.
def problem? (thresholds : Thresholds) (type : String) (value : Value) : Option Problem :=
  (Shape.ofType? type).bind (problemOfShape? thresholds type value)

end TypeAtlas.Validation
