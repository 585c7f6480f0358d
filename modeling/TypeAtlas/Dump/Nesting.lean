import TypeAtlas.Text.Utf8

namespace TypeAtlas.Dump

-- What the next character of a text belongs to. Braces in comments and in literals do not count.
inductive Mode
  | code
  -- A slash of code, which may begin a comment.
  | slash
  | lineComment
  | blockComment
  -- A star in a block comment, which may end it.
  | star
  | literal (quote : Char)
  -- A backslash in a literal, which takes the meaning from the next character.
  | escape (quote : Char)
  deriving DecidableEq, Repr

namespace Mode

def afterCode (c : Char) : Mode :=
  if c = '/' then slash
  else if c = '\x22' || c = '\x27' then literal c
  else code

-- A literal without an end goes no further than its line, unless a backslash ends the line.
def next : Mode → Char → Mode
  | code, c => afterCode c
  | slash, c => if c = '/' then lineComment else if c = '*' then blockComment else afterCode c
  | lineComment, c => if c = '\n' then code else lineComment
  | blockComment, c => if c = '*' then star else blockComment
  | star, c => if c = '/' then code else if c = '*' then star else blockComment
  | literal quote, c =>
    if c = '\\' then escape quote else if c = '\n' || c = quote then code else literal quote
  | escape quote, _ => literal quote

def isCode : Mode → Bool
  | code | slash => true
  | _ => false

end Mode

-- A brace that counts, seen from the block around it.
inductive Brace
  | opening
  | closing
  deriving DecidableEq, Repr

def Mode.brace? (mode : Mode) (c : Char) : Option Brace :=
  if !mode.isCode then none
  else if c = '{' then some .opening
  else if c = '}' then some .closing
  else none

-- The text before the brace that closes one block more than `depth`, after the characters `seen` in
-- reverse, and the text behind that brace.
def enclosedFrom (mode : Mode) (depth : Nat) (seen : List Char) :
    List Char → Option (List Char × List Char)
  | [] => none
  | c :: rest =>
    match mode.brace? c, depth with
    | some .closing, 0 => some (seen.reverse, rest)
    | some .closing, outer + 1 => enclosedFrom (mode.next c) outer (c :: seen) rest
    | some .opening, depth => enclosedFrom (mode.next c) (depth + 1) (c :: seen) rest
    | none, depth => enclosedFrom (mode.next c) depth (c :: seen) rest

-- The block whose opening brace stands right before a text, and the text behind the block.
def enclosed? (text : List Char) : Option (List Char × List Char) :=
  enclosedFrom .code 0 [] text

-- The byte offset of the brace that closes the block opened at a byte offset.
def matchingBrace? (text : List Char) (offset : Nat) : Option Nat :=
  match Text.dropBytes? offset text with
  | some (c :: rest) =>
    if c = '{' then (enclosed? rest).map fun block => offset + 1 + Text.byteSize block.1 else none
  | _ => none

def Brace.step : Option Brace → Int
  | some .opening => 1
  | some .closing => -1
  | none => 0

-- How much deeper a line ends than it begins, read as a text of its own.
def balance (line : List Char) : Int :=
  (line.foldl (fun state c => (state.1.next c, state.2 + Brace.step (state.1.brace? c)))
    (Mode.code, 0)).2

end TypeAtlas.Dump
