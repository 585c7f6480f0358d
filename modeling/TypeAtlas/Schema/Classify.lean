import TypeAtlas.Rules
import TypeAtlas.Text.Read
import TypeAtlas.Schema.Basic

namespace TypeAtlas.Schema

open Text

-- The type names that a dump declares.
structure KnownTypes where
  enums : NameSet
  structs : NameSet
  templates : NameSet

def KnownTypes.contains (known : KnownTypes) (name : String) : Bool :=
  known.enums.contains name || known.structs.contains name || known.templates.contains name

structure Classification where
  category : Category
  element : Option String
  deriving DecidableEq, Repr

-- What stands between the brackets of a list without the blanks around it, on one line. Of blanks
-- alone it is the last that does not break the line.
def listElement? (inner : List Char) : Option (List Char) :=
  let trimmed := trim inner
  if trimmed.isEmpty then (inner.reverse.find? (· != '\n')).map ([·])
  else if trimmed.contains '\n' then none
  else some trimmed

-- What stands before the brackets of an array without the blanks behind it, on one line. Of blanks
-- alone it is the first.
def arrayElement? (before : List Char) : Option (List Char) :=
  let trimmed := trimEnd before
  let element := if trimmed.isEmpty then before.take 1 else trimmed
  if element.isEmpty || element.contains '\n' then none else some element

def isQualifiedChar (c : Char) : Bool :=
  isWord c || c == '.'

-- Whether a name is List, perhaps behind a qualifier.
def isListName (name : List Char) : Bool :=
  name == "List".toList || (name.length > 5 && ".List".toList.isSuffixOf name)

-- The element type of a list type.
def listType? (type : List Char) : Option (List Char) :=
  if isListName (type.takeWhile isQualifiedChar) then
    match type.dropWhile isQualifiedChar with
    | '<' :: rest =>
      if rest.getLast? == some '>' then listElement? rest.dropLast else none
    | _ => none
  else none

-- The element type of an array type.
def arrayType? (type : List Char) : Option (List Char) :=
  match type.reverse with
  | ']' :: rest =>
    match rest.dropWhile fun c => c == ',' || isBlank c with
    | '[' :: before => arrayElement? before.reverse
    | _ => none
  | _ => none

-- The element type of a list or array type.
def collectionElement? (type : String) : Option String :=
  ((listType? type.toList).orElse fun _ => arrayType? type.toList).map String.ofList

-- A capitalized name without brackets and dots.
def isPlainTypeName (type : String) : Bool :=
  match type.toList with
  | c :: rest => c.isUpper && !rest.any fun c => c ∈ ['<', '>', '[', ']', '.']
  | [] => false

-- The first rule that applies to a type without blanks around it decides.
def classifyTrimmed (rules : Rules) (known : KnownTypes) (type : String) : Classification :=
  if rules.primitiveTypes.contains type then ⟨.primitive, none⟩
  else if rules.stringTypes.contains type then ⟨.string, none⟩
  else if known.enums.contains type then ⟨.enum, none⟩
  else if known.structs.contains type then ⟨.struct, none⟩
  else if rules.localizedTextTypes.contains type then ⟨.localizedText, none⟩
  else if rules.externalAssetTypes.contains type then ⟨.externalAsset, none⟩
  else
    match collectionElement? type with
    | some element => ⟨.collection, some element⟩
    | none =>
      if endsWith type rules.templateSuffix && known.templates.contains type then
        ⟨.reference, none⟩
      else if isPlainTypeName type then ⟨.reference, none⟩
      else ⟨.unknown, none⟩

def classify (rules : Rules) (known : KnownTypes) (type : String) : Classification :=
  classifyTrimmed rules known (String.ofList (trim type.toList))

end TypeAtlas.Schema
