import DspIsa.Source
import DspIsa.Text.Hex
import DspIsa.Word

/-! Instructions: fixed bits, operand ranges, and how values are packed into an encoding. -/
namespace DspIsa

inductive Width where
  | bits8
  | bits16
  | bits32
  deriving DecidableEq, Repr

namespace Width

def bits : Width → Nat
  | .bits8 => 8
  | .bits16 => 16
  | .bits32 => 32

def ofBits? : Nat → Option Width
  | 8 => some .bits8
  | 16 => some .bits16
  | 32 => some .bits32
  | _ => none

def hexDigits (width : Width) : Nat := width.bits / 4

theorem ofBits?_bits (width : Width) : ofBits? width.bits = some width := by
  cases width <;> rfl

end Width

/-- The bits `low..=high` of an encoding, written with one symbol in the spec. -/
structure Operand where
  low : Nat
  high : Nat
  symbol : Char
  deriving DecidableEq, Repr

namespace Operand

def width (operand : Operand) : Nat := operand.high - operand.low + 1

def isSingleBit (operand : Operand) : Bool := operand.low == operand.high

def render (operand : Operand) : String :=
  if operand.isSingleBit then s!"{operand.symbol}[{operand.low}]"
  else s!"{operand.symbol}[{operand.low}..={operand.high}]"

/-- The lowest bits of a value, at the operand's place. -/
def place (operand : Operand) (value : Code) : Code :=
  (value &&& Bits.lowMask operand.width) <<< operand.low

/-- Places the values in operand order, zero where the list of values is too short. -/
def placeAll : List Operand → List Code → Code
  | [], _ => 0#32
  | operand :: rest, values => operand.place (values.headD 0#32) ||| placeAll rest values.tail

end Operand

/-- The name a symbol gives to a field: the letter itself in lower case, or its code point. -/
def fieldIdent (symbol : Char) : String :=
  if symbol.isAlpha then symbol.toLower.toString
  else "op_" ++ Text.hex 2 symbol.toNat

/-- A name with a number behind it. -/
def numbered (base : String) (number : Nat) : String := s!"{base}_{number}"

/-- The name of a field with `earlier` fields of the same base in front of it. -/
def repetition (base : String) : Nat → String
  | 0 => base
  | earlier => numbered base earlier

/-- Numbers every repetition of a name, given the names that came before. -/
def numberRepeats (seen : List String) : List String → List String
  | [] => []
  | base :: rest => repetition base (seen.count base) :: numberRepeats (base :: seen) rest

/-- One line of a spec. Operands ascend by their low bit. -/
structure Instruction where
  name : String
  mnemonic : String
  operands : List Operand
  fixedMask : Code
  fixedValue : Code
  width : Width
  span : Span
  deriving DecidableEq, Repr

namespace Instruction

def isExtension (instr : Instruction) : Bool := instr.width == .bits8

/-- The part of a code that the first word of this instruction carries. -/
def firstWordOf (instr : Instruction) (code : Code) : Word :=
  match instr.width with
  | .bits32 => (code >>> 16).setWidth 16
  | _ => code.setWidth 16

def firstWordMask (instr : Instruction) : Word := instr.firstWordOf instr.fixedMask

def firstWordValue (instr : Instruction) : Word := instr.firstWordOf instr.fixedValue

/-- The bits of two input words that this instruction's encoding occupies. -/
def codeOf (instr : Instruction) (first second : Word) : Code :=
  match instr.width with
  | .bits8 => (first &&& 0xFF#16).setWidth 32
  | .bits16 => first.setWidth 32
  | .bits32 => (first.setWidth 32 <<< 16) ||| second.setWidth 32

/-- Whether all fixed bits are as the instruction wants them. -/
def isMatch (instr : Instruction) (first second : Word) : Bool :=
  instr.codeOf first second &&& instr.fixedMask == instr.fixedValue

/-- Packs one value per operand into the fixed bits; a missing value counts as zero. -/
def encode (instr : Instruction) (values : List Code) : Code :=
  instr.fixedValue ||| Operand.placeAll instr.operands values

def splitWords (instr : Instruction) (code : Code) : Word × Word :=
  match instr.width with
  | .bits32 => ((code >>> 16).setWidth 16, code.setWidth 16)
  | _ => (code.setWidth 16, 0#16)

/-- One name per operand, in operand order. -/
def fieldNames (instr : Instruction) : List String :=
  numberRepeats [] (instr.operands.map fun operand => fieldIdent operand.symbol)

def hexCode (instr : Instruction) (code : Code) : String :=
  Text.markedHex instr.width.hexDigits code.toNat

def render (instr : Instruction) : String :=
  instr.name ++ " (mask=" ++ instr.hexCode instr.fixedMask ++
    ", value=" ++ instr.hexCode instr.fixedValue ++ ")"

end Instruction

end DspIsa
