namespace TypeAtlas.Text

-- The number of bytes a text takes.
def byteSize (text : List Char) : Nat :=
  text.foldl (fun size c => size + c.utf8Size) 0

-- The rest of a text from a byte offset on, if a character begins there or the text ends there.
def dropBytes? : Nat → List Char → Option (List Char)
  | 0, text => some text
  | _ + 1, [] => none
  | n + 1, c :: rest => if c.utf8Size ≤ n + 1 then dropBytes? (n + 1 - c.utf8Size) rest else none
termination_by _ text => text.length

def encode (text : List Char) : List UInt8 :=
  text.flatMap String.utf8EncodeChar

def replacement : Char := '\uFFFD'

-- A character whose first bytes are read: how many bytes it still lacks, the range the next one has
-- to lie in, and the bits so far.
structure Partial where
  lacks : Nat
  low : UInt8
  high : UInt8
  bits : Nat

-- Reads the byte a character begins with: what it completes, and what it leaves open.
def leadByte (b : UInt8) : List Char × Option Partial :=
  if b < 0x80 then ([Char.ofNat b.toNat], none)
  else if 0xC2 ≤ b && b ≤ 0xDF then ([], some ⟨1, 0x80, 0xBF, b.toNat - 0xC0⟩)
  else if 0xE0 ≤ b && b ≤ 0xEF then
    ([], some ⟨2, if b = 0xE0 then 0xA0 else 0x80, if b = 0xED then 0x9F else 0xBF, b.toNat - 0xE0⟩)
  else if 0xF0 ≤ b && b ≤ 0xF4 then
    ([], some ⟨3, if b = 0xF0 then 0x90 else 0x80, if b = 0xF4 then 0x8F else 0xBF, b.toNat - 0xF0⟩)
  else ([replacement], none)

-- A byte out of range ends the open character, which becomes a replacement, and begins the next.
def nextByte : Option Partial → UInt8 → List Char × Option Partial
  | none, b => leadByte b
  | some p, b =>
    if p.low ≤ b && b ≤ p.high then
      let bits := p.bits * 64 + (b.toNat - 0x80)
      if p.lacks = 1 then ([Char.ofNat bits], none)
      else ([], some ⟨p.lacks - 1, 0x80, 0xBF, bits⟩)
    else
      let next := leadByte b
      (replacement :: next.1, next.2)

-- Decodes bytes, given the characters decoded so far in reverse.
def decodeFrom (seen : List Char) (opened : Option Partial) : List UInt8 → List Char
  | [] => (if opened.isSome then replacement :: seen else seen).reverse
  | b :: rest =>
    let next := nextByte opened b
    decodeFrom (next.1.reverse ++ seen) next.2 rest

-- One replacement character stands for each maximal part that is no character.
def decodeLossy (bytes : List UInt8) : List Char :=
  decodeFrom [] none bytes

-- Decodes bytes that are an encoding, and no others.
def decode? (bytes : List UInt8) : Option (List Char) :=
  let text := decodeLossy bytes
  if encode text = bytes then some text else none

end TypeAtlas.Text
