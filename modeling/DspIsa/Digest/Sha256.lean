import DspIsa.Text.Hex

/-! The SHA-256 digest of a byte string. -/
namespace DspIsa.Digest

namespace Sha256

/-- The eight words of the running hash. -/
structure State where
  a : UInt32
  b : UInt32
  c : UInt32
  d : UInt32
  e : UInt32
  f : UInt32
  g : UInt32
  h : UInt32
  deriving DecidableEq, Repr

/-- The first 32 fractional bits of the square roots of the first eight primes. -/
def State.initial : State :=
  ⟨0x6a09e667, 0xbb67ae85, 0x3c6ef372, 0xa54ff53a, 0x510e527f, 0x9b05688c, 0x1f83d9ab, 0x5be0cd19⟩

def State.add (x y : State) : State :=
  ⟨x.a + y.a, x.b + y.b, x.c + y.c, x.d + y.d, x.e + y.e, x.f + y.f, x.g + y.g, x.h + y.h⟩

/-- The first 32 fractional bits of the cube roots of the first sixty-four primes. -/
def roundConstants : List UInt32 := [
  0x428a2f98, 0x71374491, 0xb5c0fbcf, 0xe9b5dba5, 0x3956c25b, 0x59f111f1, 0x923f82a4, 0xab1c5ed5,
  0xd807aa98, 0x12835b01, 0x243185be, 0x550c7dc3, 0x72be5d74, 0x80deb1fe, 0x9bdc06a7, 0xc19bf174,
  0xe49b69c1, 0xefbe4786, 0x0fc19dc6, 0x240ca1cc, 0x2de92c6f, 0x4a7484aa, 0x5cb0a9dc, 0x76f988da,
  0x983e5152, 0xa831c66d, 0xb00327c8, 0xbf597fc7, 0xc6e00bf3, 0xd5a79147, 0x06ca6351, 0x14292967,
  0x27b70a85, 0x2e1b2138, 0x4d2c6dfc, 0x53380d13, 0x650a7354, 0x766a0abb, 0x81c2c92e, 0x92722c85,
  0xa2bfe8a1, 0xa81a664b, 0xc24b8b70, 0xc76c51a3, 0xd192e819, 0xd6990624, 0xf40e3585, 0x106aa070,
  0x19a4c116, 0x1e376c08, 0x2748774c, 0x34b0bcb5, 0x391c0cb3, 0x4ed8aa4a, 0x5b9cca4f, 0x682e6ff3,
  0x748f82ee, 0x78a5636f, 0x84c87814, 0x8cc70208, 0x90befffa, 0xa4506ceb, 0xbef9a3f7, 0xc67178f2]

def rotateRight (x n : UInt32) : UInt32 := (x >>> n) ||| (x <<< (32 - n))

/-- The next word of the message schedule, behind the words so far. -/
def scheduleWord (words : Array UInt32) : UInt32 :=
  let back (n : Nat) : UInt32 := words.getD (words.size - n) 0
  let x := back 15
  let y := back 2
  let low := rotateRight x 7 ^^^ rotateRight x 18 ^^^ (x >>> 3)
  let high := rotateRight y 17 ^^^ rotateRight y 19 ^^^ (y >>> 10)
  back 16 + low + back 7 + high

/-- The sixty-four words that a block of sixteen is spread to. -/
def schedule (block : Array UInt32) : Array UInt32 :=
  (List.range 48).foldl (fun words _ => words.push (scheduleWord words)) block

def round (s : State) (constant word : UInt32) : State :=
  let choice := (s.e &&& s.f) ^^^ (~~~s.e &&& s.g)
  let majority := (s.a &&& s.b) ^^^ (s.a &&& s.c) ^^^ (s.b &&& s.c)
  let fromE := rotateRight s.e 6 ^^^ rotateRight s.e 11 ^^^ rotateRight s.e 25
  let fromA := rotateRight s.a 2 ^^^ rotateRight s.a 13 ^^^ rotateRight s.a 22
  let first := s.h + fromE + choice + constant + word
  ⟨first + (fromA + majority), s.a, s.b, s.c, s.d + first, s.e, s.f, s.g⟩

def compress (state : State) (block : Array UInt32) : State :=
  let rounds := roundConstants.zip (schedule block).toList
  state.add (rounds.foldl (fun s (constant, word) => round s constant word) state)

/-- The bytes of a number, highest first. -/
def bigEndian (count value : Nat) : List UInt8 :=
  (List.range count).reverse.map fun place => UInt8.ofNat (value >>> (8 * place))

/-- The message, a one bit, zeros up to a whole number of blocks, and the length in bits. -/
def padded (message : Array UInt8) : Array UInt8 :=
  let zeros := (119 - message.size % 64) % 64
  message ++ (0x80 :: List.replicate zeros 0).toArray ++ (bigEndian 8 (8 * message.size)).toArray

/-- The word of four bytes that begins at a place, highest byte first. -/
def wordAt (bytes : Array UInt8) (place : Nat) : UInt32 :=
  (List.range 4).foldl (fun word i => (word <<< 8) ||| (bytes.getD (place + i) 0).toUInt32) 0

def blockAt (bytes : Array UInt8) (index : Nat) : Array UInt32 :=
  (Array.range 16).map fun i => wordAt bytes (64 * index + 4 * i)

def hash (message : ByteArray) : State :=
  let bytes := padded message.data
  (List.range (bytes.size / 64)).foldl (fun state i => compress state (blockAt bytes i)) .initial

def State.hex (s : State) : String :=
  String.join ([s.a, s.b, s.c, s.d, s.e, s.f, s.g, s.h].map fun word => Text.hex 8 word.toNat)

end Sha256

/-- The digest of a text's UTF-8 bytes as sixty-four hexadecimal digits. -/
def sha256 (text : String) : String := (Sha256.hash text.toUTF8).hex

end DspIsa.Digest
