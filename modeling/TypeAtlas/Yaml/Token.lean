import TypeAtlas.Yaml.Element

namespace TypeAtlas.Yaml

-- Elements in their order, with the starts and ends of the blocks that indentation makes of them,
-- and with a mark before each key.
inductive Token
  | scalar (text : String) (plain : Bool)
  | opening (bracket : Bracket)
  | closing (bracket : Bracket)
  | comma
  | item
  | key
  | value
  | listStart
  | mappingStart
  | blockEnd
  | documentStart
  | documentEnd
  deriving DecidableEq

-- Something that turns out to be a key if a colon follows it.
structure PendingKey where
  -- Whether nothing but a key may stand here.
  required : Bool
  -- How many tokens stand before it.
  position : Nat
  spot : Spot

-- What a colon may still be looking for is on the line of the colon and not too far away.
def PendingKey.reaches (key : PendingKey) (spot : Spot) : Bool :=
  key.spot.line == spot.line && spot.index ≤ key.spot.index + 1024

-- The tokens of what is read so far, and what the next element depends on.
structure Layout where
  tokens : Array Token
  -- The columns of the open blocks, the innermost first.
  indents : List Nat
  -- What may be a key here, and in front of each open bracket, the innermost first.
  pending : Option PendingKey
  outer : List (Option PendingKey)
  -- Whether a key may begin here.
  keyAllowed : Bool

namespace Layout

def start : Layout :=
  ⟨#[], [], none, [], true⟩

def inFlow (layout : Layout) : Bool :=
  !layout.outer.isEmpty

-- The least column of the lines that belong to a scalar here.
def indent (layout : Layout) : Nat :=
  (layout.indents.head?.map (· + 1)).getD 0

def emit (token : Token) (layout : Layout) : Layout :=
  { layout with tokens := layout.tokens.push token }

def allowKey (allowed : Bool) (layout : Layout) : Layout :=
  { layout with keyAllowed := allowed }

-- Gives up what might have been a key. What has to be one is an error then.
def dropKey (layout : Layout) : Option Layout :=
  if layout.pending.any (·.required) then none else some { layout with pending := none }

-- Keeps a place in mind that a key may begin at. Where a line begins in line with the innermost block,
-- it has to be one.
def saveKey (spot : Spot) (layout : Layout) : Option Layout :=
  if layout.keyAllowed then do
    let layout ← layout.dropKey
    let required := !layout.inFlow && layout.indents.head? == some spot.column
    return { layout with pending := some ⟨required, layout.tokens.size, spot⟩ }
  else some layout

-- What is still a pending key when a spot is reached.
def expire (spot : Spot) : Option PendingKey → Option (Option PendingKey)
  | none => some none
  | some key =>
    if key.reaches spot then some (some key) else if key.required then none else some none

-- Opens a block in front of some token unless an open block is as deep. Brackets hold no blocks.
def openBlock (column position : Nat) (token : Token) (layout : Layout) : Layout :=
  if layout.inFlow || layout.indents.head?.any (column ≤ ·) then layout
  else
    { layout with
      tokens := layout.tokens.insertIdxIfInBounds position token
      indents := column :: layout.indents }

-- Opens a block where a mark stands outside of brackets, which has to be where a key may begin.
def beginBlock (column : Nat) (token : Token) (layout : Layout) : Option Layout :=
  if layout.inFlow then some layout
  else if layout.keyAllowed then some (layout.openBlock column layout.tokens.size token)
  else none

-- Closes the innermost blocks, as long as their columns are of a kind.
def closeBlocks (among : Nat → Bool) (layout : Layout) : Layout :=
  if layout.inFlow then layout
  else
    { layout with
      tokens := layout.tokens ++ Array.replicate (layout.indents.takeWhile among).length .blockEnd
      indents := layout.indents.dropWhile among }

def closeAll (layout : Layout) : Layout :=
  layout.closeBlocks fun _ => true

-- Moves on to the spot of the next element.
def reach (spot : Spot) (layout : Layout) : Option Layout := do
  let pending ← expire spot layout.pending
  let outer ← layout.outer.mapM (expire spot)
  return { layout with pending := pending, outer := outer }.closeBlocks (spot.column < ·)

-- Marks what was pending as a key.
def takeKey (key : PendingKey) (layout : Layout) : Layout :=
  let marked := layout.tokens.insertIdxIfInBounds key.position .key
  { layout with tokens := marked, pending := none, keyAllowed := false }.openBlock
    key.spot.column key.position .mappingStart

-- Leaves the innermost brackets.
def leave (layout : Layout) : Layout :=
  { layout with pending := layout.outer.headD none, outer := layout.outer.tail }

-- Adds the element at a spot.
def add (spot : Spot) (layout : Layout) : Element → Option Layout
  | .documentStart => do
    return (← layout.closeAll.dropKey).allowKey false |>.emit .documentStart
  | .documentEnd => do
    return (← layout.closeAll.dropKey).allowKey false |>.emit .documentEnd
  | .opening bracket => do
    let layout ← layout.saveKey spot
    let inner := { layout with pending := none, outer := layout.pending :: layout.outer }
    return inner.allowKey true |>.emit (.opening bracket)
  | .closing bracket => do
    return (← layout.dropKey).leave.allowKey false |>.emit (.closing bracket)
  | .comma => do
    return (← layout.dropKey).allowKey true |>.emit .comma
  | .dash => do
    if layout.inFlow then none
    else return (← (← layout.beginBlock spot.column .listStart).dropKey).allowKey true |>.emit .item
  | .question => do
    let layout ← (← layout.beginBlock spot.column .mappingStart).dropKey
    return layout.allowKey (!layout.inFlow) |>.emit .key
  | .colon =>
    match layout.pending with
    | some key => some ((layout.takeKey key).emit .value)
    | none => do
      let layout ← layout.beginBlock spot.column .mappingStart
      return layout.allowKey (!layout.inFlow) |>.emit .value
  | .scalar text plain broken => do
    return (← layout.saveKey spot).allowKey broken |>.emit (.scalar text plain)

-- Adds all elements of a text.
def read? (layout : Layout) (spots : List Spot) : Option Layout :=
  match _h : skipBlank layout.inFlow layout.keyAllowed false spots with
  | (_, []) => layout.closeAll.dropKey
  | (keyAllowed, spot :: rest) => do
    let layout ← (layout.allowKey keyAllowed).reach spot
    match _h : element? layout.inFlow layout.indent (spot :: rest) with
    | none => none
    | some (element, rest) => (← layout.add spot element).read? rest
termination_by spots.length
decreasing_by grind [→ element?_length, skipBlank_length]

end Layout

def Token.ofText? (text : List Char) : Option (List Token) := do
  let spots ← Spot.ofText? text
  let layout ← Layout.start.read? spots
  return layout.tokens.toList

end TypeAtlas.Yaml
