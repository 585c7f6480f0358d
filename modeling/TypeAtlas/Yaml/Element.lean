import TypeAtlas.Yaml.Plain
import TypeAtlas.Yaml.Quoted

namespace TypeAtlas.Yaml

inductive Bracket
  | square
  | curly
  deriving DecidableEq, Repr

-- Scalars and marks, before anything is known of how they nest.
inductive Element
  -- Three dashes or dots in front of a line.
  | documentStart
  | documentEnd
  | opening (bracket : Bracket)
  | closing (bracket : Bracket)
  | comma
  -- The marks of an item, of a key and of a value.
  | dash
  | question
  | colon
  -- A scalar, whether it is plain, and whether it ends in front of a line break.
  | scalar (text : String) (plain broken : Bool)

-- What may stand before an element: blanks, breaks and comments, and a byte order mark in front of a
-- line. Tabs count where no key may begin. Gives whether a key may begin behind them, which it may
-- behind a break outside of brackets, and what follows.
def skipBlank (flow keyAllowed comment : Bool) : List Spot → Bool × List Spot
  | [] => (keyAllowed, [])
  | spot :: rest =>
    if isBreak spot.char then skipBlank flow (keyAllowed || !flow) false rest
    else if comment then skipBlank flow keyAllowed true rest
    else if spot.char == ' ' || (spot.char == '\t' && (flow || !keyAllowed)) ||
        (spot.char == '\ufeff' && spot.column == 0) then
      skipBlank flow keyAllowed false rest
    else if spot.char = '#' then skipBlank flow keyAllowed true rest
    else (keyAllowed, spot :: rest)

theorem skipBlank_length (flow keyAllowed comment : Bool) (spots : List Spot) :
    (skipBlank flow keyAllowed comment spots).2.length ≤ spots.length := by
  fun_induction skipBlank flow keyAllowed comment spots <;> grind

-- The mark that a character is. Some need something apart behind them, of which the question mark and
-- the colon do not in brackets.
def mark? (flow apart : Bool) (c : Char) : Option Element :=
  match c with
  | '[' => some (.opening .square)
  | ']' => some (.closing .square)
  | '{' => some (.opening .curly)
  | '}' => some (.closing .curly)
  | ',' => some .comma
  | '-' => if apart then some .dash else none
  | '?' => if flow || apart then some .question else none
  | ':' => if flow || apart then some .colon else none
  | _ => none

-- The scalar that a text begins with. What a bar, an ampersand or another indicator begins is not
-- read here.
def scalar? (flow : Bool) (indent : Nat) : List Spot → Option (Element × List Spot)
  | [] => none
  | spot :: rest =>
    if spot.char = '\x27' then
      (singleQuoted? [] .empty rest).map fun (text, rest) => (.scalar text false false, rest)
    else if spot.char = '\x22' then
      (doubleQuoted? [] .empty rest).map fun (text, rest) => (.scalar text false false, rest)
    else if isIndicator spot.char then none
    else
      (plain? flow indent [spot.char] .empty rest).map fun (plain, rest) =>
        (.scalar plain.text true plain.broken, rest)

theorem scalar?_length {flow : Bool} {indent : Nat} {spots rest : List Spot} {element : Element}
    (h : scalar? flow indent spots = some (element, rest)) : rest.length < spots.length := by
  cases spots with
  | nil => simp [scalar?] at h
  | cons spot tail =>
    simp only [scalar?] at h
    split at h
    · obtain ⟨_, hq, he⟩ := Option.map_eq_some_iff.mp h
      cases he
      exact Nat.lt_succ_of_lt (singleQuoted?_length hq)
    · split at h
      · obtain ⟨_, hq, he⟩ := Option.map_eq_some_iff.mp h
        cases he
        exact Nat.lt_succ_of_lt (doubleQuoted?_length hq)
      · split at h
        · cases h
        · obtain ⟨_, hp, he⟩ := Option.map_eq_some_iff.mp h
          cases he
          exact Nat.lt_succ_of_le (plain?_length hp)

-- The element that a text begins with.
def element? (flow : Bool) (indent : Nat) : List Spot → Option (Element × List Spot)
  | [] => none
  | spot :: rest =>
    if Spot.isMark '-' (spot :: rest) then some (.documentStart, rest.drop 2)
    else if Spot.isMark '.' (spot :: rest) then some (.documentEnd, rest.drop 2)
    else
      match mark? flow (Spot.isApart rest) spot.char with
      | some mark => some (mark, rest)
      | none => scalar? flow indent (spot :: rest)

theorem element?_length {flow : Bool} {indent : Nat} {spots rest : List Spot} {element : Element}
    (h : element? flow indent spots = some (element, rest)) : rest.length < spots.length := by
  unfold element? at h
  grind [→ scalar?_length]

end TypeAtlas.Yaml
