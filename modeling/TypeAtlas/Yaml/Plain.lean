import TypeAtlas.Yaml.Gap

namespace TypeAtlas.Yaml

-- Commas and brackets, which end plain scalars in brackets.
def isFlowMark (c : Char) : Bool :=
  c ∈ [',', '[', ']', '{', '}']

-- Characters that no plain scalar begins with, not counting the dash, question mark and colon.
def isIndicator (c : Char) : Bool :=
  isFlowMark c ||
    c ∈ ['\t', '#', '&', '*', '!', '|', '>', '\x27', '\x22', '%', '@', '\x60']

structure Plain where
  text : String
  -- Whether the scalar ends in front of a line break.
  broken : Bool

-- The rest of a plain scalar, after text in reverse and a gap, and what follows. It goes up to a
-- comment, a colon that ends a key or, in brackets, a comma or bracket. Lines within it are indented
-- by so many columns, by spaces only.
def plain? (flow : Bool) (indent : Nat) (seen : List Char) (gap : Gap) :
    List Spot → Option (Plain × List Spot)
  | [] => some (⟨String.ofList seen.reverse, gap.isBroken⟩, [])
  | spot :: rest =>
    if isWhite spot.char then
      if gap.isBroken && spot.char == '\t' && spot.column < indent then none
      else plain? flow indent seen (gap.push spot.char) rest
    else if !gap.isEmpty && (spot.char == '#' || Spot.isDocumentMark (spot :: rest) ||
        (!flow && spot.column < indent)) then
      some (⟨String.ofList seen.reverse, gap.isBroken⟩, spot :: rest)
    else if flow && spot.char == ':' &&
        rest.head?.any (fun next => next.char == '?' || isFlowMark next.char) then none
    else if (spot.char == ':' && Spot.isApart rest) || (flow && isFlowMark spot.char) then
      some (⟨String.ofList seen.reverse, gap.isBroken⟩, spot :: rest)
    else plain? flow indent (spot.char :: (gap.text ++ seen)) .empty rest

theorem plain?_length {flow : Bool} {indent : Nat} {seen : List Char} {gap : Gap}
    {spots rest : List Spot} {plain : Plain}
    (h : plain? flow indent seen gap spots = some (plain, rest)) : rest.length ≤ spots.length := by
  fun_induction plain? flow indent seen gap spots <;> grind

end TypeAtlas.Yaml
