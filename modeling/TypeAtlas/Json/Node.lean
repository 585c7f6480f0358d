import TypeAtlas.Text.Utf8
import TypeAtlas.Json.Numeral

namespace TypeAtlas.Json

open Text

-- Why a text is no JSON: it ends too early, or something else stands where it goes on.
inductive Cause
  | ended
  | malformed
  deriving DecidableEq, Repr

-- Where reading stops. A value that is only skipped is read less strictly, so the two may differ.
structure Fault where
  read : Cause
  skipped : Cause
  deriving DecidableEq, Repr

def Fault.ended : Fault := ⟨.ended, .ended⟩
def Fault.malformed : Fault := ⟨.malformed, .malformed⟩
-- A numeral that the text ends in.
def Fault.cutNumeral : Fault := ⟨.ended, .malformed⟩

-- How a list or an object ends.
inductive Ending
  | closed
  -- Reading stops, behind a comma or not.
  | cut (comma : Bool) (fault : Fault)
  deriving DecidableEq, Repr

-- The tree of a text. Where the text stops being JSON the tree says so, and it holds all that
-- stands before that place.
inductive Node
  | null
  | bool (value : Bool)
  | num (numeral : Numeral)
  -- A string has no text if it holds half of a surrogate pair alone.
  | str (text : Option String)
  | arr (items : List Node) (ending : Ending)
  | obj (members : List (Option String × Node)) (ending : Ending)
  -- No value: this text stands where one should.
  | broken (fault : Fault) (rest : List Char)
  deriving Inhabited

def isSpace (c : Char) : Bool :=
  c == ' ' || c == '\n' || c == '\t' || c == '\r'

def dropSpace (text : List Char) : List Char :=
  text.dropWhile isSpace

-- Four hexadecimal digits. Fewer than four bytes are a text that ends too early.
def hexFour (text : List Char) : Except Cause (Nat × List Char) :=
  match text with
  | a :: b :: c :: d :: rest =>
    match hexNumber? [a, b, c, d] with
    | some n => .ok (n, rest)
    | none => .error .malformed
  | short => .error (if byteSize short < 4 then .ended else .malformed)

theorem hexFour_length {text rest : List Char} {n : Nat} (h : hexFour text = .ok (n, rest)) :
    rest.length < text.length := by
  unfold hexFour at h
  split at h
  · split at h
    · cases h
      simp only [List.length_cons]
      omega
    · cases h
  · cases h

-- The second half of a surrogate pair.
def lowHalf? (text : List Char) : Option (Nat × List Char) :=
  match text with
  | '\\' :: 'u' :: rest =>
    match hexFour rest with
    | .ok (n, rest) => if 0xDC00 ≤ n && n ≤ 0xDFFF then some (n, rest) else none
    | .error _ => none
  | _ => none

-- Whether a text could still become a second half.
def endsInHalf : List Char → Bool
  | [] => true
  | ['\\'] => true
  | '\\' :: 'u' :: rest => byteSize (rest.take 4) < 4
  | _ => false

theorem lowHalf?_length {text rest : List Char} {n : Nat} (h : lowHalf? text = some (n, rest)) :
    rest.length < text.length := by
  unfold lowHalf? at h
  split at h
  · split at h
    · rename_i tail m r hr
      split at h
      · cases h
        have := hexFour_length hr
        simp only [List.length_cons]
        omega
      · cases h
    · cases h
  · cases h

-- One character behind a backslash.
def escape? (c : Char) : Option Char :=
  if c = '\x22' || c = '\\' || c = '/' then some c
  else if c = 'b' then some '\x08'
  else if c = 'f' then some '\x0c'
  else if c = 'n' then some '\n'
  else if c = 'r' then some '\r'
  else if c = 't' then some '\t'
  else none

-- The rest of a string, after the characters `seen` in reverse. It is not sound if half of a
-- surrogate pair stood alone in it; read strictly it stops being JSON there.
def stringFrom (seen : List Char) (sound : Bool) (text : List Char) :
    Except Fault (Option String × List Char) :=
  let fault (cause : Cause) : Except Fault (Option String × List Char) :=
    .error ⟨if sound then cause else .malformed, cause⟩
  match text with
  | [] => fault .ended
  | ['\\'] => fault .ended
  | '\\' :: 'u' :: rest =>
    match _h : hexFour rest with
    | .error cause => fault cause
    | .ok (n, after) =>
      if 0xD800 ≤ n && n ≤ 0xDBFF then
        match _h' : lowHalf? after with
        | some (low, after) =>
          let code := 0x10000 + (n - 0xD800) * 0x400 + (low - 0xDC00)
          stringFrom (Char.ofNat code :: seen) sound after
        | none => stringFrom seen (sound && endsInHalf after) after
      else if 0xDC00 ≤ n && n ≤ 0xDFFF then stringFrom seen false after
      else stringFrom (Char.ofNat n :: seen) sound after
  | '\\' :: c :: rest =>
    match escape? c with
    | some c => stringFrom (c :: seen) sound rest
    | none => fault .malformed
  | c :: rest =>
    if c = '\x22' then .ok (if sound then some (String.ofList seen.reverse) else none, rest)
    else if c < ' ' then fault .malformed
    else stringFrom (c :: seen) sound rest
termination_by text.length
decreasing_by
  all_goals simp only [List.length_cons]
  · have := hexFour_length _h
    have := lowHalf?_length _h'
    omega
  · have := hexFour_length _h
    omega
  · have := hexFour_length _h
    omega
  · have := hexFour_length _h
    omega
  · omega
  · omega

-- The rest of a literal name, such as null after its first letter.
def literal (word : String) (text : List Char) : Except Fault (List Char) :=
  match after? word.toList text with
  | some rest => .ok rest
  | none => .error (if text.isPrefixOf word.toList then .ended else .malformed)

-- Digits that have to stand in a numeral.
def digits (text : List Char) : Except Fault (List Char × List Char) :=
  match text with
  | [] => .error .cutNumeral
  | c :: rest =>
    if c.isDigit then .ok (c :: rest.takeWhile Char.isDigit, rest.dropWhile Char.isDigit)
    else .error .malformed

-- The digits before the point: a zero, or digits that begin with another one.
def wholeDigits (text : List Char) : Except Fault (List Char × List Char) :=
  match text with
  | '0' :: c :: rest => if c.isDigit then .error .malformed else .ok (['0'], c :: rest)
  | _ => digits text

def fractionDigits (text : List Char) : Except Fault (List Char × List Char) :=
  match text with
  | '.' :: rest => digits rest
  | _ => .ok ([], text)

def exponentPart (text : List Char) : Except Fault (Option Exponent × List Char) :=
  match text with
  | [] => .ok (none, text)
  | c :: rest =>
    if c = 'e' || c = 'E' then
      let (negative, rest) :=
        match rest with
        | '+' :: rest => (false, rest)
        | '-' :: rest => (true, rest)
        | _ => (false, rest)
      (digits rest).map fun (ds, rest) => (some ⟨negative, ds⟩, rest)
    else .ok (none, text)

def numeral (text : List Char) : Except Fault (Numeral × List Char) := do
  let (negative, text) :=
    match text with
    | '-' :: rest => (true, rest)
    | _ => (false, text)
  let (whole, text) ← wholeDigits text
  let (fraction, text) ← fractionDigits text
  let (exponent, text) ← exponentPart text
  .ok (⟨negative, whole, fraction, exponent⟩, text)

-- A value and what follows it, or the fault where reading stops.
abbrev Reading := Node × Except Fault (List Char)

def Reading.broken (fault : Fault) (text : List Char) : Reading :=
  (.broken fault text, .error fault)

def Reading.ofLeaf {α : Type} (make : α → Node) (text : List Char) :
    Except Fault (α × List Char) → Reading
  | .ok (value, rest) => (make value, .ok rest)
  | .error fault => .broken fault text

def Reading.ofWord (node : Node) (text : List Char) : Except Fault (List Char) → Reading
  | .ok rest => (node, .ok rest)
  | .error fault => .broken fault text

-- A value that is neither a list nor an object.
def scalar (text : List Char) : Reading :=
  match text with
  | [] => .broken .ended []
  | 'n' :: rest => .ofWord .null text (literal "ull" rest)
  | 't' :: rest => .ofWord (.bool true) text (literal "rue" rest)
  | 'f' :: rest => .ofWord (.bool false) text (literal "alse" rest)
  | '\x22' :: rest => .ofLeaf .str text (stringFrom [] true rest)
  | c :: _ =>
    if c = '-' || c.isDigit then .ofLeaf .num text (numeral text)
    else .broken .malformed text

-- What stands before the next item of a list or member of an object.
inductive Turn
  | ends (rest : List Char)
  | goesOn (rest : List Char)
  | stops (comma : Bool) (fault : Fault)

-- The next item comes behind a comma, unless it is the first; no comma stands before the end.
def turn (close : Char) (first : Bool) (text : List Char) : Turn :=
  match dropSpace text with
  | [] => .stops false .ended
  | c :: rest =>
    if c = close then .ends rest
    else if first then .goesOn (c :: rest)
    else if c = ',' then
      match dropSpace rest with
      | [] => .stops true .ended
      | c :: rest => if c = close then .stops true .malformed else .goesOn (c :: rest)
    else .stops false .malformed

-- The key of a member up to its colon: the key, and the text of the value or the fault before it.
def key (text : List Char) : Except Fault (Option String × Except Fault (List Char)) :=
  match text with
  | '\x22' :: rest =>
    match stringFrom [] true rest with
    | .error fault => .error fault
    | .ok (name, rest) =>
      match dropSpace rest with
      | ':' :: rest => .ok (name, .ok rest)
      | [] => .ok (name, .error .ended)
      | _ => .ok (name, .error .malformed)
  | _ => .error .malformed

mutual

-- Each step takes from the fuel, and two for each character are enough.
def value : Nat → List Char → Reading
  | 0, text => .broken .malformed text
  | fuel + 1, text =>
    match dropSpace text with
    | '[' :: rest => items fuel [] rest
    | '{' :: rest => members fuel [] rest
    | rest => scalar rest

def items : Nat → List Node → List Char → Reading
  | 0, done, _ => (.arr done.reverse (.cut false .malformed), .error .malformed)
  | fuel + 1, done, text =>
    match turn ']' done.isEmpty text with
    | .ends rest => (.arr done.reverse .closed, .ok rest)
    | .stops comma fault => (.arr done.reverse (.cut comma fault), .error fault)
    | .goesOn rest =>
      match value fuel rest with
      | (node, .ok rest) => items fuel (node :: done) rest
      | (node, .error fault) => (.arr (node :: done).reverse (.cut false fault), .error fault)

def members : Nat → List (Option String × Node) → List Char → Reading
  | 0, done, _ => (.obj done.reverse (.cut false .malformed), .error .malformed)
  | fuel + 1, done, text =>
    match turn '}' done.isEmpty text with
    | .ends rest => (.obj done.reverse .closed, .ok rest)
    | .stops comma fault => (.obj done.reverse (.cut comma fault), .error fault)
    | .goesOn rest =>
      match key rest with
      | .error fault => (.obj done.reverse (.cut (!done.isEmpty) fault), .error fault)
      | .ok (name, .error fault) =>
        (.obj ((name, .broken fault []) :: done).reverse (.cut false fault), .error fault)
      | .ok (name, .ok rest) =>
        match value fuel rest with
        | (node, .ok rest) => members fuel ((name, node) :: done) rest
        | (node, .error fault) =>
          (.obj ((name, node) :: done).reverse (.cut false fault), .error fault)

end

-- A whole text: its value, and whether nothing follows it.
structure Document where
  root : Node
  clean : Bool

def Document.read (text : List Char) : Document :=
  match value (2 * text.length + 2) text with
  | (root, .ok rest) => ⟨root, (dropSpace rest).isEmpty⟩
  | (root, .error _) => ⟨root, false⟩

end TypeAtlas.Json
