import TypeAtlas.Text.Digits
import TypeAtlas.Yaml.Gap

namespace TypeAtlas.Yaml

-- The rest of a scalar in single quotes, after text in reverse and a gap. A quote inside is written
-- twice, and no mark of a document stands inside.
def singleQuoted? (seen : List Char) (gap : Gap) : List Spot → Option (String × List Spot)
  | [] => none
  | spot :: rest =>
    if isWhite spot.char then singleQuoted? seen (gap.push spot.char) rest
    else if Spot.isDocumentMark (spot :: rest) then none
    else if spot.char = '\x27' then
      match rest with
      | next :: later =>
        if next.char = '\x27' then singleQuoted? ('\x27' :: (gap.text ++ seen)) .empty later
        else some (String.ofList (gap.text ++ seen).reverse, rest)
      | [] => some (String.ofList (gap.text ++ seen).reverse, [])
    else singleQuoted? (spot.char :: (gap.text ++ seen)) .empty rest

theorem singleQuoted?_length {seen : List Char} {gap : Gap} {spots rest : List Spot} {text : String}
    (h : singleQuoted? seen gap spots = some (text, rest)) : rest.length < spots.length := by
  fun_induction singleQuoted? seen gap spots <;> grind

-- What a letter behind a backslash stands for.
def simpleEscapes : List (Char × Char) :=
  [('0', '\x00'), ('a', '\x07'), ('b', '\x08'), ('t', '\t'), ('\t', '\t'), ('n', '\n'),
    ('v', '\x0b'), ('f', '\x0c'), ('r', '\r'), ('e', '\x1b'), (' ', ' '), ('\x22', '\x22'),
    ('/', '/'), ('\\', '\\'), ('N', '\u0085'), ('_', '\u00a0'), ('L', '\u2028'), ('P', '\u2029')]

-- How many hexadecimal digits follow a letter behind a backslash.
def codeLength? (c : Char) : Option Nat :=
  if c = 'x' then some 2 else if c = 'u' then some 4 else if c = 'U' then some 8 else none

-- The character of a code point that is one.
def charOf? (n : Nat) : Option Char :=
  if h : n.isValidChar then some (Char.ofNatAux n h) else none

-- What a backslash makes of the spots behind it: a character, or none for a break, and what follows.
def escape? : List Spot → Option (Option Char × List Spot)
  | [] => none
  | spot :: rest =>
    if isBreak spot.char then some (none, rest)
    else
      match codeLength? spot.char with
      | some length =>
        if length ≤ rest.length then
          ((Text.hexNumber? ((rest.take length).map Spot.char)).bind charOf?).map fun c =>
            (some c, rest.drop length)
        else none
      | none =>
        (simpleEscapes.find? fun entry => entry.1 == spot.char).map fun entry => (some entry.2, rest)

theorem escape?_length {spots rest : List Spot} {c : Option Char}
    (h : escape? spots = some (c, rest)) : rest.length < spots.length := by
  unfold escape? at h
  grind [Option.map_eq_some_iff]

-- The rest of a scalar in double quotes, after text in reverse and a gap.
def doubleQuoted? (seen : List Char) (gap : Gap) : List Spot → Option (String × List Spot)
  | [] => none
  | spot :: rest =>
    if isWhite spot.char then doubleQuoted? seen (gap.push spot.char) rest
    else if Spot.isDocumentMark (spot :: rest) then none
    else if spot.char = '\x22' then some (String.ofList (gap.text ++ seen).reverse, rest)
    else if spot.char = '\\' then
      match _h : escape? rest with
      | some (some c, later) => doubleQuoted? (c :: (gap.text ++ seen)) .empty later
      | some (none, later) => doubleQuoted? (gap.text ++ seen) (.breaks none []) later
      | none => none
    else doubleQuoted? (spot.char :: (gap.text ++ seen)) .empty rest
termination_by spots => spots.length
decreasing_by all_goals grind [→ escape?_length]

theorem doubleQuoted?_length {seen : List Char} {gap : Gap} {spots rest : List Spot} {text : String}
    (h : doubleQuoted? seen gap spots = some (text, rest)) : rest.length < spots.length := by
  fun_induction doubleQuoted? seen gap spots <;> grind [→ escape?_length]

end TypeAtlas.Yaml
