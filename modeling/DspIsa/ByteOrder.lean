import DspIsa.Word

/-! The order in which the two bytes of a word are stored. Reading inverts writing, and a
stray last byte is not a word. -/
namespace DspIsa

inductive ByteOrder where
  | little
  | big
  deriving DecidableEq, Repr

/-- A text that names no byte order, in lower case. -/
structure UnknownByteOrder where
  text : String
  deriving DecidableEq, Repr

def UnknownByteOrder.message (fault : UnknownByteOrder) : String :=
  s!"unknown endianness '{fault.text}' (expected 'big' or 'little')"

namespace ByteOrder

def name : ByteOrder → String
  | .little => "little"
  | .big => "big"

/-- Reads a byte order by its full or short name, without regard to ASCII case. -/
def parse (text : String) : Except UnknownByteOrder ByteOrder :=
  let lower := text.map Char.toLower
  if lower = "little" ∨ lower = "le" then .ok .little
  else if lower = "big" ∨ lower = "be" then .ok .big
  else .error ⟨lower⟩

def decode (order : ByteOrder) (first second : UInt8) : Word :=
  match order with
  | .big => first.toBitVec ++ second.toBitVec
  | .little => second.toBitVec ++ first.toBitVec

def encode (order : ByteOrder) (word : Word) : List UInt8 :=
  let high := UInt8.ofBitVec (word.extractLsb' 8 8)
  let low := UInt8.ofBitVec (word.extractLsb' 0 8)
  match order with
  | .big => [high, low]
  | .little => [low, high]

/-- The whole words of a byte string. -/
def words (order : ByteOrder) : List UInt8 → List Word
  | first :: second :: rest => order.decode first second :: order.words rest
  | _ => []

def encodeWords (order : ByteOrder) (words : List Word) : List UInt8 :=
  words.flatMap order.encode

end ByteOrder

end DspIsa
