import TypeAtlas.Text.Digits

namespace TypeAtlas.Sha256

-- The eight words that one block is compressed into.
structure Chain where
  a : UInt32
  b : UInt32
  c : UInt32
  d : UInt32
  e : UInt32
  f : UInt32
  g : UInt32
  h : UInt32

-- The fractional parts of the square roots of the first eight primes.
def Chain.initial : Chain :=
  ⟨0x6a09e667, 0xbb67ae85, 0x3c6ef372, 0xa54ff53a,
    0x510e527f, 0x9b05688c, 0x1f83d9ab, 0x5be0cd19⟩

-- The fractional parts of the cube roots of the first sixty-four primes.
def constants : List UInt32 :=
  [0x428a2f98, 0x71374491, 0xb5c0fbcf, 0xe9b5dba5, 0x3956c25b, 0x59f111f1, 0x923f82a4, 0xab1c5ed5,
   0xd807aa98, 0x12835b01, 0x243185be, 0x550c7dc3, 0x72be5d74, 0x80deb1fe, 0x9bdc06a7, 0xc19bf174,
   0xe49b69c1, 0xefbe4786, 0x0fc19dc6, 0x240ca1cc, 0x2de92c6f, 0x4a7484aa, 0x5cb0a9dc, 0x76f988da,
   0x983e5152, 0xa831c66d, 0xb00327c8, 0xbf597fc7, 0xc6e00bf3, 0xd5a79147, 0x06ca6351, 0x14292967,
   0x27b70a85, 0x2e1b2138, 0x4d2c6dfc, 0x53380d13, 0x650a7354, 0x766a0abb, 0x81c2c92e, 0x92722c85,
   0xa2bfe8a1, 0xa81a664b, 0xc24b8b70, 0xc76c51a3, 0xd192e819, 0xd6990624, 0xf40e3585, 0x106aa070,
   0x19a4c116, 0x1e376c08, 0x2748774c, 0x34b0bcb5, 0x391c0cb3, 0x4ed8aa4a, 0x5b9cca4f, 0x682e6ff3,
   0x748f82ee, 0x78a5636f, 0x84c87814, 0x8cc70208, 0x90befffa, 0xa4506ceb, 0xbef9a3f7, 0xc67178f2]

def rotate (x : UInt32) (n : UInt32) : UInt32 :=
  (x >>> n) ||| (x <<< (32 - n))

-- The word that follows sixteen words of a message schedule.
def nextWord (window : List UInt32) : UInt32 :=
  let early := window.getD 1 0
  let late := window.getD 14 0
  let smallZero := rotate early 7 ^^^ rotate early 18 ^^^ (early >>> 3)
  let smallOne := rotate late 17 ^^^ rotate late 19 ^^^ (late >>> 10)
  window.getD 0 0 + smallZero + window.getD 9 0 + smallOne

-- So many words of the schedule, from a window of sixteen on.
def schedule : Nat → List UInt32 → List UInt32
  | 0, _ => []
  | n + 1, window => window.getD 0 0 :: schedule n (window.drop 1 ++ [nextWord window])

def Chain.round (s : Chain) (constant word : UInt32) : Chain :=
  let bigOne := rotate s.e 6 ^^^ rotate s.e 11 ^^^ rotate s.e 25
  let choice := (s.e &&& s.f) ^^^ ((~~~s.e) &&& s.g)
  let first := s.h + bigOne + choice + constant + word
  let bigZero := rotate s.a 2 ^^^ rotate s.a 13 ^^^ rotate s.a 22
  let majority := (s.a &&& s.b) ^^^ (s.a &&& s.c) ^^^ (s.b &&& s.c)
  ⟨first + bigZero + majority, s.a, s.b, s.c, s.d + first, s.e, s.f, s.g⟩

def Chain.add (s t : Chain) : Chain :=
  ⟨s.a + t.a, s.b + t.b, s.c + t.c, s.d + t.d, s.e + t.e, s.f + t.f, s.g + t.g, s.h + t.h⟩

-- Bytes as words, the highest byte first.
def words : List UInt8 → List UInt32
  | p :: q :: r :: s :: rest =>
    ((p.toUInt32 <<< 24) ||| (q.toUInt32 <<< 16) ||| (r.toUInt32 <<< 8) ||| s.toUInt32) ::
      words rest
  | _ => []

def Chain.compress (s : Chain) (block : List UInt8) : Chain :=
  s.add ((constants.zip (schedule 64 (words block))).foldl
    (fun t step => t.round step.1 step.2) s)

-- The bytes read since the last full block, in reverse, and the words of the blocks before.
structure Progress where
  chain : Chain
  pending : List UInt8
  count : Nat

def Progress.absorb (p : Progress) (byte : UInt8) : Progress :=
  if p.count = 63 then ⟨p.chain.compress (byte :: p.pending).reverse, [], 0⟩
  else ⟨p.chain, byte :: p.pending, p.count + 1⟩

-- A one bit, zeros up to eight bytes before a block ends, and the length in bits.
def padding (size : Nat) : List UInt8 :=
  let zeros := (119 - size % 64) % 64
  0x80 :: List.replicate zeros 0 ++
    (List.range 8).map fun i => UInt8.ofNat (Nat.shiftRight (size * 8) (8 * (7 - i)))

def Chain.toHex (s : Chain) : String :=
  String.ofList ([s.a, s.b, s.c, s.d, s.e, s.f, s.g, s.h].flatMap
    fun word => Text.hexPadded 8 word.toNat)

def hexDigest (bytes : List UInt8) : String :=
  let read := bytes.foldl Progress.absorb ⟨Chain.initial, [], 0⟩
  ((padding bytes.length).foldl Progress.absorb read).chain.toHex

end TypeAtlas.Sha256
