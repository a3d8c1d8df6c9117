/-! The generated decoder before it is written out: type declarations, dispatch functions and
the expressions in them. -/
namespace DspIsa.Generated

/-- The two parameters of a dispatch function. -/
inductive Input where
  | instruction
  | nextInstruction
  deriving DecidableEq, Repr

/-- How a field gets its value: an input as it is, or a call of a bit helper. -/
inductive FieldRead where
  | whole (input : Input)
  | bit (input : Input) (index : Nat)
  | bits (input : Input) (low high : Nat)
  deriving DecidableEq, Repr

structure Field where
  name : String
  source : FieldRead
  deriving DecidableEq, Repr

/-- The type of one opcode. -/
structure OpcodeType where
  ident : String
  bits : Nat
  fields : List Field
  deriving DecidableEq, Repr

/-- A line `index |= ((instruction >> bit) & 0x1) << slotBit`. -/
structure IndexBit where
  bit : Nat
  slotBit : Nat
  deriving DecidableEq, Repr

/-- What a match arm does: build a value, or leave it to a nested function. -/
inductive ArmBody where
  | construct (type : OpcodeType)
  | call (function : String)
  deriving DecidableEq, Repr

structure Arm where
  index : Nat
  body : ArmBody
  deriving DecidableEq, Repr

/-- The body of a dispatch function. `dispatch` falls back to the default value of a type. -/
inductive FunctionBody where
  | direct (type : OpcodeType)
  | unknown (nop : OpcodeType)
  | dispatch (indexBits : List IndexBit) (arms : List Arm) (nop : OpcodeType)
  deriving DecidableEq, Repr

structure DispatchFunction where
  name : String
  isPublic : Bool
  body : FunctionBody
  deriving DecidableEq, Repr

/-- An arm for the bytes `first..=last`. -/
structure ByteArm where
  first : Nat
  last : Nat
  type : OpcodeType
  deriving DecidableEq, Repr

/-- The extension dispatcher; without a default arm its byte arms cover every byte. -/
structure ByteDispatch where
  arms : List ByteArm
  hasDefault : Bool
  deriving DecidableEq, Repr

structure Program where
  logTarget : String
  sourceLabel : String
  sourceDigest : String
  instructionCount : Nat
  extensionCount : Nat
  mainTypes : List OpcodeType
  extensionTypes : List OpcodeType
  extensionNop : OpcodeType
  byteDispatch : ByteDispatch
  functions : List DispatchFunction
  deriving DecidableEq, Repr

end DspIsa.Generated
