import TypeAtlas.Config.File
import TypeAtlas.Offset
import TypeAtlas.Yaml.Node

namespace TypeAtlas.Config

open Offset (unsigned)
open Yaml (Node)

variable {σ : Type}

-- A text may be any scalar, and a number has to be a plain one. An empty node stands for no items and
-- no settings.
namespace Scalar

def text? : Node → Option String
  | .scalar text _ => some text
  | _ => none

def plain? : Node → Option (List Char)
  | .scalar text true => some text.toList
  | _ => none

-- The texts of a list.
def texts? : Node → Option (List String)
  | .list items => items.mapM text?
  | .scalar "" true => some []
  | _ => none

def digitValue? (base : Nat) (c : Char) : Option Nat :=
  (Text.hexValue? c).filter (· < base)

-- A number with a mark of its base, or in decimal digits, of which only a lone zero begins with zero.
def natural? (text : List Char) : Option Nat :=
  match text with
  | '0' :: 'x' :: digits => Text.hexNumber? digits
  | '0' :: 'o' :: digits => Text.number? (digitValue? 8) 8 digits
  | '0' :: 'b' :: digits => Text.number? (digitValue? 2) 2 digits
  | '0' :: _ :: _ => none
  | digits => Text.decimalNumber? digits

def count? (node : Node) : Option Nat := do
  let n ← natural? (unsigned (← plain? node))
  if n < UInt64.size then some n else none

-- The power of ten that an exponent gives; none is no power.
def power? (text : List Char) : Option Int :=
  match text with
  | [] => some 0
  | c :: rest =>
    if c = 'e' || c = 'E' then
      match rest with
      | '-' :: digits => (Text.decimalNumber? digits).map fun n => -n
      | _ => (Text.decimalNumber? (unsigned rest)).map Int.ofNat
    else none

-- The floating-point number nearest to a decimal. One of the two sides of the point may be empty.
def decimal? (text : List Char) : Option Float := do
  let whole := text.takeWhile Char.isDigit
  let text := text.dropWhile Char.isDigit
  let (fraction, text) :=
    match text with
    | '.' :: rest => (rest.takeWhile Char.isDigit, rest.dropWhile Char.isDigit)
    | _ => ([], text)
  let mantissa ← Text.decimalNumber? (whole ++ fraction)
  let exponent := (← power? text) - fraction.length
  -- No decimal of these sizes is told from zero or has a nearest finite number.
  if mantissa = 0 || exponent + (whole.length + fraction.length : Nat) < -400 then some 0.0
  else if 400 < exponent then none
  else
    let x := Float.ofScientific mantissa (exponent < 0) exponent.natAbs
    if x.isFinite then some x else none

def infinities : List String := [".inf", ".Inf", ".INF"]

def nans : List String := [".nan", ".NaN", ".NAN"]

def ratio? (node : Node) : Option Float := do
  let text ← plain? node
  let digits := unsigned text
  let name := String.ofList digits
  if infinities.contains name then some (1.0 / 0.0)
  else if nans.contains (String.ofList text) then some (0.0 / 0.0)
  else
    match text with
    | '-' :: rest =>
      if infinities.contains (String.ofList rest) then some (-1.0 / 0.0)
      else (decimal? rest).map fun x => -x
    | _ => decimal? digits

end Scalar

def Slot.readYaml (node : Node) (s : σ) : Slot σ → Option σ
  | names place => (Scalar.texts? node).map fun v => place.set (.ofNames v) s
  | texts place => (Scalar.texts? node).map fun v => place.set v s
  | text place => (Scalar.text? node).map fun v => place.set v s
  | ratio place => (Scalar.ratio? node).map fun v => place.set v s
  | count place => (Scalar.count? node).map fun v => place.set v s

-- A part of a `σ` with a key.
structure Part (σ : Type) where
  key : String
  read : Node → σ → Option σ

def Setting.part (setting : Setting σ) : Part σ :=
  ⟨setting.key, fun node s => setting.slot.readYaml node s⟩

-- Reads members into a record whose parts named `seen` are given already. No part comes twice, and
-- members that are no parts do not count.
def readMembers (parts : List (Part σ)) (seen : List String) (s : σ) :
    List (Node × Node) → Option σ
  | [] => some s
  | (key, node) :: rest => do
    let name ← Scalar.text? key
    match parts.find? fun part => part.key == name with
    | none => readMembers parts seen s rest
    | some part =>
      if seen.contains name then none
      else readMembers parts (name :: seen) (← part.read node s) rest

def readParts (parts : List (Part σ)) (start : σ) : Node → Option σ
  | .mapping members => readMembers parts [] start members
  | .scalar "" true => some start
  | _ => none

def parts : List (Part Config) :=
  [⟨"rules", fun node c =>
      (readParts (ruleSettings.map Setting.part) .standard node).map fun rules =>
        { c with rules := rules }⟩,
   ⟨"validation", fun node c =>
      (readParts (thresholdSettings.map Setting.part) .standard node).map fun validation =>
        { c with validation := validation }⟩]

def readYaml? (text : List Char) : Option Config :=
  (Node.read? text).bind (readParts parts .standard)

-- A reader for the part of YAML that configurations are mostly written in: no scalars in blocks, no
-- anchors and aliases, no tags and no directives. Its message is its own. Nothing that is proved of
-- runs depends on it.
instance : YamlReader where
  read text :=
    match readYaml? text with
    | some config => .ok config
    | none => .error "invalid document"

end TypeAtlas.Config
