import TypeAtlas.Yaml.Token

namespace TypeAtlas.Yaml

inductive Node
  | scalar (text : String) (plain : Bool)
  | list (items : List Node)
  | mapping (members : List (Node × Node))
  deriving Inhabited

namespace Node

def empty : Node :=
  .scalar "" true

-- Whether a block leaves out a node in front of such tokens.
def missesNode : List Token → Bool
  | .key :: _ => true
  | .value :: _ => true
  | .blockEnd :: _ => true
  | _ => false

-- The same for an item of a block, which another item may follow.
def missesItem (tokens : List Token) : Bool :=
  tokens.head? == some .item || missesNode tokens

-- The same in brackets.
def missesFlow : List Token → Bool
  | .value :: _ => true
  | .comma :: _ => true
  | .closing _ :: _ => true
  | _ => false

mutual

-- A scalar or a node in brackets. Each step of the readers takes from the fuel, and four for each token
-- are enough.
def flow? : Nat → List Token → Option (Node × List Token)
  | 0, _ => none
  | fuel + 1, tokens =>
    match tokens with
    | .scalar text plain :: rest => some (.scalar text plain, rest)
    | .opening .square :: rest => flowItems? fuel [] rest
    | .opening .curly :: rest => flowMembers? fuel [] rest
    | _ => none

-- The items of a list behind its opening bracket or a comma.
def flowItems? : Nat → List Node → List Token → Option (Node × List Token)
  | 0, _, _ => none
  | _, done, .closing .square :: rest => some (.list done.reverse, rest)
  | fuel + 1, done, tokens => do
    let (item, rest) ← flowItem? fuel tokens
    match rest with
    | .comma :: rest => flowItems? fuel (item :: done) rest
    | .closing .square :: rest => some (.list (item :: done).reverse, rest)
    | _ => none

-- An item, or a key with its value, which are a mapping of their own. A mark right behind the mark of a
-- key stands in place of the key.
def flowItem? : Nat → List Token → Option (Node × List Token)
  | 0, _ => none
  | fuel + 1, .key :: tokens => do
    let (key, rest) ← if missesFlow tokens && tokens.head? != some (.closing .curly)
      then some (.empty, tokens.drop 1) else flow? fuel tokens
    let (value, rest) ← flowValue? fuel rest
    return (.mapping [(key, value)], rest)
  | fuel + 1, tokens => flow? fuel tokens

-- The members of a mapping behind its opening bracket or a comma.
def flowMembers? : Nat → List (Node × Node) → List Token → Option (Node × List Token)
  | 0, _, _ => none
  | _, done, .closing .curly :: rest => some (.mapping done.reverse, rest)
  | fuel + 1, done, tokens => do
    let (member, rest) ← flowMember? fuel tokens
    match rest with
    | .comma :: rest => flowMembers? fuel (member :: done) rest
    | .closing .curly :: rest => some (.mapping (member :: done).reverse, rest)
    | _ => none

-- A member, of which a node without the mark of a key has only the key.
def flowMember? : Nat → List Token → Option ((Node × Node) × List Token)
  | 0, _ => none
  | fuel + 1, .key :: tokens => do
    let (key, rest) ← if missesFlow tokens then some (.empty, tokens) else flow? fuel tokens
    let (value, rest) ← flowValue? fuel rest
    return ((key, value), rest)
  | fuel + 1, tokens => do
    let (key, rest) ← flow? fuel tokens
    return ((key, .empty), rest)

-- A value with its mark, or an empty one.
def flowValue? : Nat → List Token → Option (Node × List Token)
  | 0, _ => none
  | fuel + 1, .value :: rest => if missesFlow rest then some (.empty, rest) else flow? fuel rest
  | _, tokens => some (.empty, tokens)

end

mutual

-- Any node. Each step of the readers takes from the fuel, and four for each token are enough.
def block? : Nat → List Token → Option (Node × List Token)
  | 0, _ => none
  | fuel + 1, tokens =>
    match tokens with
    | .listStart :: rest => items? fuel [] rest
    | .mappingStart :: rest => members? fuel [] rest
    | .item :: _ => alignedItems? fuel [] tokens
    | _ => flow? (fuel + 1) tokens

-- The items of a list up to the end of its block.
def items? : Nat → List Node → List Token → Option (Node × List Token)
  | 0, _, _ => none
  | fuel + 1, done, .item :: rest => do
    let (item, rest) ← if missesItem rest then some (.empty, rest) else block? fuel rest
    items? fuel (item :: done) rest
  | _, done, .blockEnd :: rest => some (.list done.reverse, rest)
  | _, _, _ => none

-- The items of a list in line with the keys around it, which has no block of its own.
def alignedItems? : Nat → List Node → List Token → Option (Node × List Token)
  | 0, _, _ => none
  | fuel + 1, done, .item :: rest => do
    let (item, rest) ← if missesItem rest then some (.empty, rest) else block? fuel rest
    alignedItems? fuel (item :: done) rest
  | _, done, tokens => some (.list done.reverse, tokens)

-- The members of a mapping up to the end of its block.
def members? : Nat → List (Node × Node) → List Token → Option (Node × List Token)
  | 0, _, _ => none
  | fuel + 1, done, .key :: rest => do
    let (key, rest) ← if missesNode rest then some (.empty, rest) else block? fuel rest
    let (value, rest) ← value? fuel rest
    members? fuel ((key, value) :: done) rest
  | _, done, .blockEnd :: rest => some (.mapping done.reverse, rest)
  | _, _, _ => none

-- A value with its mark, or an empty one.
def value? : Nat → List Token → Option (Node × List Token)
  | 0, _ => none
  | fuel + 1, .value :: rest => if missesNode rest then some (.empty, rest) else block? fuel rest
  | _, tokens => some (.empty, tokens)

end

-- A node, or an empty one where the document ends.
def content? (tokens : List Token) : Option (Node × List Token) :=
  match tokens with
  | [] => some (.empty, [])
  | .documentStart :: _ => some (.empty, tokens)
  | .documentEnd :: _ => some (.empty, tokens)
  | _ => block? (4 * tokens.length + 4) tokens

-- The node of the only document that tokens spell. Its start need not be marked unless its end follows.
def ofTokens? (tokens : List Token) : Option Node := do
  let (node, rest) ←
    match tokens with
    | .documentEnd :: _ => none
    | .documentStart :: rest => content? rest
    | _ => content? tokens
  if (rest.dropWhile (· == .documentEnd)).isEmpty then some node else none

def read? (text : List Char) : Option Node :=
  (Token.ofText? text).bind ofTokens?

end Node

end TypeAtlas.Yaml
