import TypeAtlas.Offset
import TypeAtlas.Rules
import TypeAtlas.Text.Line
import TypeAtlas.Dump.Nesting
import TypeAtlas.Dump.Header

namespace TypeAtlas.Dump

open Text

def visibilityWords : List String :=
  ["public", "private", "protected", "internal"]

-- What follows the visibility a text begins with.
def visibility? (text : List Char) : Option (List Char) :=
  (word? visibilityWords text).map Prod.snd

-- A line that declares a field and ends in a comment with its offset, in its parts as written.
structure FieldLine where
  modifiers : List String
  type : List Char
  name : List Char
  digits : List Char
  deriving DecidableEq, Repr

namespace FieldLine

def modifierWords : List String :=
  ["static", "readonly", "const", "volatile", "new", "protected", "internal", "private", "fixed",
    "unsafe"]

-- A modifier behind blanks. It need not end where the word does.
def modifier? (text : List Char) : Option (String × List Char) :=
  (blanks? text).bind (word? modifierWords)

theorem modifier?_length {text rest : List Char} {word : String}
    (h : modifier? text = some (word, rest)) : rest.length < text.length := by
  obtain ⟨between, hb, hw⟩ := Option.bind_eq_some_iff.mp h
  exact Nat.lt_of_le_of_lt (word?_length hw) (blanks?_length hb)

-- The ways to read modifiers at the front of a text, the most modifiers first.
def modifierRuns (text : List Char) : List (List String × List Char) :=
  match _h : modifier? text with
  | some (word, rest) =>
    (modifierRuns rest).map (fun run => (word :: run.1, run.2)) ++ [([], text)]
  | none => [([], text)]
termination_by text.length
decreasing_by exact modifier?_length _h

-- The ways to cut a text behind an angle bracket that closes type arguments, the shortest first,
-- after the characters `seen` in reverse.
def closings (seen : List Char) : List Char → List (List Char × List Char)
  | [] => []
  | c :: rest =>
    if c = '\n' then []
    else if c = '>' then ((c :: seen).reverse, rest) :: closings (c :: seen) rest
    else closings (c :: seen) rest

-- The ways to read type arguments, or nothing, at the front of a text.
def arguments (text : List Char) : List (List Char × List Char) :=
  match text with
  | '<' :: rest => closings ['<'] rest ++ [([], text)]
  | _ => [([], text)]

def isRankChar (c : Char) : Bool :=
  c == ',' || isBlank c

-- One pair of array brackets.
def arrayRank? (text : List Char) : Option (List Char × List Char) :=
  match text with
  | '[' :: rest =>
    match rest.dropWhile isRankChar with
    | ']' :: after => some ('[' :: rest.takeWhile isRankChar ++ [']'], after)
    | _ => none
  | _ => none

theorem arrayRank?_length {text rank rest : List Char}
    (h : arrayRank? text = some (rank, rest)) : rest.length < text.length := by
  unfold arrayRank? at h
  split at h
  · rename_i tail
    split at h
    · rename_i after heq
      cases h
      have hle := length_dropWhile_le isRankChar tail
      rw [heq] at hle
      simp only [List.length_cons] at hle ⊢
      omega
    · cases h
  · cases h

-- All array brackets a text begins with.
def arrayRanks (text : List Char) : List Char × List Char :=
  match _h : arrayRank? text with
  | some (rank, rest) =>
    let more := arrayRanks rest
    (rank ++ more.1, more.2)
  | none => ([], text)
termination_by text.length
decreasing_by exact arrayRank?_length _h

def isTypeChar (c : Char) : Bool :=
  isWord c || c == '.'

def isFieldNameChar (c : Char) : Bool :=
  isWord c || c == '<' || c == '>'

-- A field's name, which may be bracketed.
def fieldName? : List Char → Option (List Char × List Char)
  | [] => none
  | c :: rest =>
    if isNameStart c || c == '<' then
      some (c :: rest.takeWhile isFieldNameChar, rest.dropWhile isFieldNameChar)
    else none

-- The digits of the offset behind a field's name.
def offsetDigits? (text : List Char) : Option (List Char) := do
  let text ← after? [';'] (trimStart text)
  let text ← after? ['/', '/'] (trimStart text)
  let text := trimStart text
  let text ← (after? ['0', 'x'] text).orElse fun _ => after? ['0', 'X'] text
  (run? isHex text).map Prod.fst

-- The rest of a line behind the type's own name, for one way to read its arguments.
def afterArguments? (modifiers : List String) (stem : List Char)
    (way : List Char × List Char) : Option FieldLine := do
  let (ranks, text) := arrayRanks way.2
  let text ← blanks? text
  let (name, text) ← fieldName? text
  let digits ← offsetDigits? text
  some ⟨modifiers, stem ++ way.1 ++ ranks, name, digits⟩

-- The rest of a line behind its modifiers, for one way to read them.
def afterModifiers? (run : List String × List Char) : Option FieldLine := do
  let text ← blanks? run.2
  let (stem, text) ← name? isTypeChar text
  (arguments text).findSome? (afterArguments? run.1 stem)

def read? (line : List Char) : Option FieldLine := do
  let text ← visibility? (afterAttributes isBlank (trimStart line))
  (modifierRuns text).findSome? afterModifiers?

-- Whether the field belongs to instances.
def isInstance (line : FieldLine) : Bool :=
  !line.modifiers.contains "static" && !line.modifiers.contains "const"

end FieldLine

-- A field as written in a dump.
structure RawField where
  name : String
  declaredType : String
  offset : String
  deriving DecidableEq, Repr

def RawField.offsetValue? (field : RawField) : Option UInt64 :=
  Offset.parse? field.offset

def FieldLine.field (line : FieldLine) : RawField :=
  ⟨String.ofList line.name, String.ofList line.type, String.ofList ('0' :: 'x' :: line.digits)⟩

-- The lines that begin outside nested blocks, if the first one begins so deep.
def topLines (depth : Int) : List (List Char) → List (List Char)
  | [] => []
  | line :: rest =>
    if depth = 0 then line :: topLines (depth + balance line) rest
    else topLines (depth + balance line) rest

-- The instance fields that the lines of a body declare.
def fieldLines (body : List Char) : List FieldLine :=
  ((topLines 0 (lines body)).filterMap FieldLine.read?).filter FieldLine.isInstance

-- What becomes of an instance field.
inductive FieldFinding
  | kept (field : RawField)
  | generated (name : String)
  | atZero (name : String)
  deriving DecidableEq, Repr

-- Only the first kept field of a struct may stand at offset zero: `mayStart` says whether the next
-- one is that.
def judgeFields (rules : Rules) (mayStart : Bool) : List FieldLine → List FieldFinding
  | [] => []
  | line :: rest =>
    let field := line.field
    if rules.isGeneratedField field.name then
      .generated field.name :: judgeFields rules mayStart rest
    else if field.offsetValue? == some 0 && !mayStart then
      .atZero field.name :: judgeFields rules mayStart rest
    else .kept field :: judgeFields rules false rest

def fieldFindings (rules : Rules) (kind : Kind) (body : List Char) : List FieldFinding :=
  judgeFields rules (kind == .structType) (fieldLines body)

def FieldFinding.field? : FieldFinding → Option RawField
  | kept field => some field
  | _ => none

-- The fields that a body declares, in its order.
def fields (rules : Rules) (kind : Kind) (body : List Char) : List RawField :=
  (fieldFindings rules kind body).filterMap FieldFinding.field?

end TypeAtlas.Dump
