import DspIsa.Error
import DspIsa.Instruction

/-! Where a decoder finds an operand. The high half of a two-word encoding is the first input
word and the low half the second; an extension lies in the low byte of the first. -/
namespace DspIsa

inductive OperandSource where
  | firstWord (low high : Nat)
  | secondWord (low high : Nat)
  | wholeSecondWord
  | extensionByte (low high : Nat)
  deriving DecidableEq, Repr

namespace OperandSource

def resolve (instr : Instruction) (operand : Operand) :
    Except StraddlingOperand OperandSource :=
  match instr.width with
  | .bits8 => .ok (.extensionByte operand.low operand.high)
  | .bits16 => .ok (.firstWord operand.low operand.high)
  | .bits32 =>
    if 16 ≤ operand.low then .ok (.firstWord (operand.low - 16) (operand.high - 16))
    else if operand.low = 0 ∧ operand.high = 15 then .ok .wholeSecondWord
    else if operand.high < 16 then .ok (.secondWord operand.low operand.high)
    else .error ⟨instr.name, operand.symbol, operand.low, operand.high⟩

/-- The sources of all operands, or the first operand that has none. -/
def resolveAll (instr : Instruction) : Except StraddlingOperand (List OperandSource) :=
  instr.operands.mapM (resolve instr)

/-- The bits of the source's range within its input word. -/
def range : OperandSource → Nat × Nat
  | .firstWord low high => (low, high)
  | .secondWord low high => (low, high)
  | .wholeSecondWord => (0, 15)
  | .extensionByte low high => (low, high)

def read (source : OperandSource) (first second : Word) : Word :=
  match source with
  | .firstWord low high => (Bits.extract (first.setWidth 32) low high).setWidth 16
  | .secondWord low high => (Bits.extract (second.setWidth 32) low high).setWidth 16
  | .wholeSecondWord => second
  | .extensionByte low high =>
    (Bits.extract ((first &&& 0xFF#16).setWidth 32) low high).setWidth 16

end OperandSource

end DspIsa
