/-!
# SHA-256

The digest is computed in one pass over the bytes: `absorb` gathers 64 of them and then mixes the
block into the eight words of the state.  `hexDigest` pads the message with a one bit, zeros and
its length in bits, and writes the words in hexadecimal.
-/

namespace HookRegistry.Sha256

/-- The eight words of the state. -/
structure Words where
  a : UInt32
  b : UInt32
  c : UInt32
  d : UInt32
  e : UInt32
  f : UInt32
  g : UInt32
  h : UInt32
  deriving DecidableEq, Repr

/-- The words at the start. -/
def initial : Words where
  a := 0x6a09e667
  b := 0xbb67ae85
  c := 0x3c6ef372
  d := 0xa54ff53a
  e := 0x510e527f
  f := 0x9b05688c
  g := 0x1f83d9ab
  h := 0x5be0cd19

/-- The constants of the 64 rounds. -/
def roundConstants : List UInt32 :=
  [0x428a2f98, 0x71374491, 0xb5c0fbcf, 0xe9b5dba5, 0x3956c25b, 0x59f111f1, 0x923f82a4, 0xab1c5ed5,
    0xd807aa98, 0x12835b01, 0x243185be, 0x550c7dc3, 0x72be5d74, 0x80deb1fe, 0x9bdc06a7, 0xc19bf174,
    0xe49b69c1, 0xefbe4786, 0x0fc19dc6, 0x240ca1cc, 0x2de92c6f, 0x4a7484aa, 0x5cb0a9dc, 0x76f988da,
    0x983e5152, 0xa831c66d, 0xb00327c8, 0xbf597fc7, 0xc6e00bf3, 0xd5a79147, 0x06ca6351, 0x14292967,
    0x27b70a85, 0x2e1b2138, 0x4d2c6dfc, 0x53380d13, 0x650a7354, 0x766a0abb, 0x81c2c92e, 0x92722c85,
    0xa2bfe8a1, 0xa81a664b, 0xc24b8b70, 0xc76c51a3, 0xd192e819, 0xd6990624, 0xf40e3585, 0x106aa070,
    0x19a4c116, 0x1e376c08, 0x2748774c, 0x34b0bcb5, 0x391c0cb3, 0x4ed8aa4a, 0x5b9cca4f, 0x682e6ff3,
    0x748f82ee, 0x78a5636f, 0x84c87814, 0x8cc70208, 0x90befffa, 0xa4506ceb, 0xbef9a3f7, 0xc67178f2]

/-- Rotation to the right. -/
def rotate (x : UInt32) (n : UInt32) : UInt32 :=
  (x >>> n) ||| (x <<< (32 - n))

/-- The next word of the schedule, from the words so far with the latest first. -/
def nextWord (ws : List UInt32) : UInt32 :=
  let x := ws.getD 14 0
  let y := ws.getD 1 0
  (rotate y 17 ^^^ rotate y 19 ^^^ (y >>> 10)) + ws.getD 6 0 +
    (rotate x 7 ^^^ rotate x 18 ^^^ (x >>> 3)) + ws.getD 15 0

/-- Extends a schedule, kept with the latest word first, by `n` words. -/
def extend : Nat → List UInt32 → List UInt32
  | 0, ws => ws
  | n + 1, ws => extend n (nextWord ws :: ws)

/-- One round, with its constant and its word of the schedule. -/
def round (s : Words) (kw : UInt32 × UInt32) : Words :=
  let s1 := rotate s.e 6 ^^^ rotate s.e 11 ^^^ rotate s.e 25
  let choice := (s.e &&& s.f) ^^^ (~~~s.e &&& s.g)
  let t1 := s.h + s1 + choice + kw.1 + kw.2
  let s0 := rotate s.a 2 ^^^ rotate s.a 13 ^^^ rotate s.a 22
  let majority := (s.a &&& s.b) ^^^ (s.a &&& s.c) ^^^ (s.b &&& s.c)
  { a := t1 + (s0 + majority), b := s.a, c := s.b, d := s.c
    e := s.d + t1, f := s.e, g := s.f, h := s.g }

/-- Mixes a block into the state; its 16 words come with the latest first. -/
def compress (s : Words) (block : List UInt32) : Words :=
  let t := (roundConstants.zip (extend 48 block).reverse).foldl round s
  { a := s.a + t.a, b := s.b + t.b, c := s.c + t.c, d := s.d + t.d
    e := s.e + t.e, f := s.f + t.f, g := s.g + t.g, h := s.h + t.h }

/-- The state between two bytes. -/
structure Progress where
  words : Words := initial
  /-- The complete words of the block, the latest first. -/
  block : List UInt32 := []
  /-- The word that is being filled, and how many bytes of it are in. -/
  partialWord : UInt32 := 0
  filled : Nat := 0

/-- Takes in one byte. -/
def absorb (p : Progress) (byte : UInt8) : Progress :=
  let w := (p.partialWord <<< 8) ||| byte.toUInt32
  if p.filled < 3 then { p with partialWord := w, filled := p.filled + 1 }
  else
    let block := w :: p.block
    if block.length < 16 then { p with block, partialWord := 0, filled := 0 }
    else { words := compress p.words block }

/-- `n` as eight bytes, the most significant first. -/
def lengthBytes (n : Nat) : List UInt8 :=
  (List.range 8).map fun i => UInt8.ofNat (n >>> (8 * (7 - i)))

/-- What follows a message of `n` bytes: `0x80`, zeros up to 8 bytes before the end of a block, and
the length in bits. -/
def padding (n : Nat) : List UInt8 :=
  0x80 :: List.replicate ((119 - n % 64) % 64) 0 ++ lengthBytes (n * 8)

/-- The eight words of the digest. -/
def digest (message : List UInt8) : Words :=
  ((padding message.length).foldl absorb (message.foldl absorb {})).words

/-- Eight hexadecimal digits. -/
def hexWord (w : UInt32) : List Char :=
  (List.range 8).map fun i => Nat.digitChar (w.toNat >>> (4 * (7 - i)) % 16)

/-- The digest in 64 lower case hexadecimal digits. -/
def hexDigest (message : List UInt8) : List Char :=
  let d := digest message
  [d.a, d.b, d.c, d.d, d.e, d.f, d.g, d.h].flatMap hexWord

theorem length_hexDigest (message : List UInt8) : (hexDigest message).length = 64 := by
  simp [hexDigest, hexWord]

end HookRegistry.Sha256
