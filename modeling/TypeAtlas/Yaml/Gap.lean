import TypeAtlas.Yaml.Spot

namespace TypeAtlas.Yaml

-- What stands between two words of a scalar. Blanks within a line count for themselves, and a break
-- counts for a space, or for nothing in front of empty lines.
inductive Gap
  -- Blanks of one line, in reverse.
  | blanks (seen : List Char)
  -- A first break, unless a backslash removes it, and the breaks of empty lines behind it in reverse.
  | breaks (first : Option Char) (more : List Char)

namespace Gap

def empty : Gap :=
  blanks []

-- Blanks at the end of a line or at the start of one do not count.
def push (gap : Gap) (c : Char) : Gap :=
  match gap with
  | blanks seen => if isBreak c then breaks (some c) [] else blanks (c :: seen)
  | breaks first more => if isBreak c then breaks first (c :: more) else gap

-- The text of a gap, in reverse. A first break that is no line feed is kept.
def text : Gap → List Char
  | blanks seen => seen
  | breaks first more =>
    if first = some '\n' then if more.isEmpty then [' '] else more
    else more ++ first.toList

def isEmpty : Gap → Bool
  | blanks seen => seen.isEmpty
  | breaks _ _ => false

def isBroken : Gap → Bool
  | blanks _ => false
  | breaks _ _ => true

end Gap

end TypeAtlas.Yaml
