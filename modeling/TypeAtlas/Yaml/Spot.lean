import TypeAtlas.Text.Blank

namespace TypeAtlas.Yaml

-- A character with its place. All spellings of a line break are one.
structure Spot where
  char : Char
  line : Nat
  column : Nat
  -- How many characters stand before it.
  index : Nat

-- Characters that a text may hold. Others can only be written behind a backslash.
def isAllowed (c : Char) : Bool :=
  let n := c.toNat
  c == '\t' || c == '\n' || c == '\r' || (0x20 ≤ n && n ≤ 0x7E) || n == 0x85 ||
    (0xA0 ≤ n && n ≤ 0xFFFD) || 0x10000 ≤ n

-- Breaks as they stand in spots. The separators of lines and paragraphs stay what they are.
def isBreak (c : Char) : Bool :=
  c == '\n' || c == '\u2028' || c == '\u2029'

def isWhite (c : Char) : Bool :=
  Text.isIndent c || isBreak c

namespace Spot

-- A character as it stands in a spot: the other spellings of a break become line feeds.
def normal (c : Char) : Char :=
  if c = '\r' || c = '\u0085' then '\n' else c

-- The spots of a text that begins at a line, column and index.
def ofTextFrom (line column index : Nat) : List Char → Option (List Spot)
  | [] => some []
  | '\r' :: '\n' :: rest => do
    return ⟨'\n', line, column, index⟩ :: (← ofTextFrom (line + 1) 0 (index + 2) rest)
  | c :: rest =>
    if !isAllowed c then none
    else if isBreak (normal c) then do
      return ⟨normal c, line, column, index⟩ :: (← ofTextFrom (line + 1) 0 (index + 1) rest)
    else do
      return ⟨c, line, column, index⟩ :: (← ofTextFrom line (column + 1) (index + 1) rest)

def ofText? (text : List Char) : Option (List Spot) :=
  ofTextFrom 0 0 0 text

-- Whether a blank, a break or the end comes first.
def isApart (spots : List Spot) : Bool :=
  (spots.head?.map fun spot => isWhite spot.char).getD true

-- Whether three of a character fill the front of a line, which parts documents.
def isMark (c : Char) (spots : List Spot) : Bool :=
  (spots.head?.map fun spot => spot.column == 0).getD false &&
    (spots.take 3).map Spot.char == [c, c, c] && isApart (spots.drop 3)

def isDocumentMark (spots : List Spot) : Bool :=
  isMark '-' spots || isMark '.' spots

end Spot

end TypeAtlas.Yaml
