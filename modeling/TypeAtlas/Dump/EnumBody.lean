import TypeAtlas.NameMap
import TypeAtlas.Text.Digits
import TypeAtlas.Text.Line
import TypeAtlas.Dump.Field

namespace TypeAtlas.Dump

open Text

-- A constant and its value, if the value fits 64 bits.
structure EnumMember where
  name : String
  value : Option Int64
  deriving DecidableEq, Repr

-- A signed number of 64 bits in ASCII digits.
def int64? (negative : Bool) (digits : List Char) : Option Int64 :=
  match decimalNumber? digits with
  | some n =>
    let value : Int := if negative then -n else n
    if Int64.minValue.toInt ≤ value && value ≤ Int64.maxValue.toInt then some (Int64.ofInt value)
    else none
  | none => none

-- What follows a visibility and blanks, if they are there.
def afterVisibility (text : List Char) : List Char :=
  ((visibility? text).bind blanks?).getD text

namespace EnumMember

-- A constant at the front of a text, behind blanks and line breaks, and what follows it.
def read? (text : List Char) : Option (EnumMember × List Char) := do
  let text ← after? "const".toList (afterVisibility (trimStart text))
  let text ← blanks? text
  let (_, text) ← run? FieldLine.isTypeChar text
  let text ← blanks? text
  let (name, text) ← name? isWord text
  let text ← after? ['='] (trimStart text)
  let text := trimStart text
  let negative := text.head? == some '-'
  let (digits, text) ← run? isDecimal (if negative then text.drop 1 else text)
  let text ← after? [';'] (trimStart text)
  some (⟨String.ofList name, int64? negative digits⟩, text)

end EnumMember

-- The constants of a body. Each begins at the start of a line, and the next one is looked for on the
-- line behind its end. The fuel is at least the length of the text.
def membersFrom : Nat → List Char → List EnumMember
  | 0, _ => []
  | fuel + 1, text =>
    match EnumMember.read? text with
    | some (member, rest) =>
      member :: ((afterLine? rest).map (membersFrom fuel)).getD []
    | none => ((afterLine? text).map (membersFrom fuel)).getD []

def enumMembers (body : List Char) : List EnumMember :=
  membersFrom (body.length + 1) body

-- The type of the field that holds the value, at the front of a text.
def storageField? (text : List Char) : Option String := do
  let text ← visibility? (trimStart text)
  let text ← blanks? text
  let (type, text) ← run? FieldLine.isTypeChar text
  let text ← blanks? text
  let text ← after? "value__".toList text
  let _ ← after? [';'] (trimStart text)
  some (String.ofList type)

-- The storage type that a body gives, on the first line that gives one.
def storage? (text : List Char) : Option String :=
  match storageField? text with
  | some type => some type
  | none =>
    match _h : afterLine? text with
    | some rest => storage? rest
    | none => none
termination_by text.length
decreasing_by exact afterLine?_length _h

end TypeAtlas.Dump
