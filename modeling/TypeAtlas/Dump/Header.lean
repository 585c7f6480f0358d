import TypeAtlas.Text.Read

namespace TypeAtlas.Dump

open Text

inductive Kind
  | classType
  | structType
  | enumType
  deriving DecidableEq, Repr

namespace Kind

def keyword : Kind → String
  | classType => "class"
  | structType => "struct"
  | enumType => "enum"

def title : Kind → String
  | classType => "Class"
  | structType => "Struct"
  | enumType => "Enum"

def all : List Kind :=
  [classType, structType, enumType]

-- The kind whose keyword a text begins with, and what follows the blanks after it.
def read? (text : List Char) : Option (Kind × List Char) :=
  all.findSome? fun kind => do
    let rest ← after? kind.keyword.toList text
    let rest ← indents? rest
    some (kind, rest)

end Kind

structure Header where
  kind : Kind
  name : String
  isAbstract : Bool
  -- Whether the name has type parameters.
  isGeneric : Bool
  base : Option String
  deriving DecidableEq, Repr

namespace Header

def modifierWords : List String :=
  ["public", "private", "protected", "internal", "sealed", "static", "abstract", "unsafe",
    "readonly", "partial", "new", "ref"]

def modifier? (text : List Char) : Option (String × List Char) :=
  match word? modifierWords text with
  | some (word, rest) => (indents? rest).map fun rest => (word, rest)
  | none => none

theorem modifier?_length {text rest : List Char} {word : String}
    (h : modifier? text = some (word, rest)) : rest.length < text.length := by
  unfold modifier? at h
  split at h
  · rename_i w r hw
    obtain ⟨r', hr, he⟩ := Option.map_eq_some_iff.mp h
    cases he
    exact Nat.lt_of_lt_of_le (indents?_length hr) (word?_length hw)
  · cases h

-- The modifiers a text begins with, and what follows them.
def modifiers (text : List Char) : List String × List Char :=
  match _h : modifier? text with
  | some (word, rest) =>
    let more := modifiers rest
    (word :: more.1, more.2)
  | none => ([], text)
termination_by text.length
decreasing_by exact modifier?_length _h

-- A name may carry the count of its type parameters after a grave accent.
def isNameChar (c : Char) : Bool :=
  isWord c || c == '\x60'

def dottedPart? : List Char → Option (List Char × List Char)
  | '.' :: rest => name? isNameChar rest
  | _ => none

theorem dottedPart?_length {text part rest : List Char}
    (h : dottedPart? text = some (part, rest)) : rest.length < text.length := by
  unfold dottedPart? at h
  split at h
  · rename_i tail
    cases tail with
    | nil => simp [name?] at h
    | cons c tail =>
      simp only [name?] at h
      split at h
      · cases h
        have := length_dropWhile_le isNameChar tail
        simp only [List.length_cons]
        omega
      · cases h
  · cases h

-- The further parts of a nested type's name, each after a dot, and what follows them.
def dottedParts (text : List Char) : List Char × List Char :=
  match _h : dottedPart? text with
  | some (part, rest) =>
    let more := dottedParts rest
    ('.' :: part ++ more.1, more.2)
  | none => ([], text)
termination_by text.length
decreasing_by exact dottedPart?_length _h

-- What follows an opening angle bracket, if one is next.
def typeParameters? (text : List Char) : Option (List Char) :=
  match text.dropWhile isIndent with
  | '<' :: rest => some rest
  | _ => none

def isFiller (c : Char) : Bool :=
  c != ':' && c != '\n' && c != '{' && c != '/'

-- The name after a colon. Without one, nothing is read.
def baseAfter (text : List Char) : Option String × List Char :=
  match text with
  | ':' :: rest =>
    match name? (fun c => isWord c || c == '.') (rest.dropWhile isIndent) with
    | some (name, rest) => (some (String.ofList name), rest)
    | none => (none, text)
  | _ => (none, text)

-- The header a line begins with, and what follows it.
def read? (text : List Char) : Option (Header × List Char) := do
  let text := afterAttributes isIndent (text.dropWhile isIndent)
  let (words, text) := modifiers text
  let (kind, text) ← Kind.read? text
  let (first, text) ← name? isNameChar text
  let (parts, text) := dottedParts text
  let parameters := typeParameters? text
  let (base, text) := baseAfter ((parameters.getD text).dropWhile isFiller)
  let header :=
    ⟨kind, String.ofList (first ++ parts), words.contains "abstract", parameters.isSome, base⟩
  some (header, text)

end Header

end TypeAtlas.Dump
