import DspIsa.DecisionTree
import DspIsa.Document
import DspIsa.ExtensionTable
import DspIsa.OperandSource

/-! The reference decoder: the tree finds the main instruction, the byte table the extension,
and the operand sources read their fields. -/
namespace DspIsa

/-- The opcode that stands for a word nothing is known about. -/
def fallbackName : String := "NOP"

structure FieldValue where
  name : String
  value : Word
  deriving DecidableEq, Repr

def FieldValue.render (field : FieldValue) : String :=
  field.name ++ "=" ++ Text.markedHex 1 field.value.toNat

/-- What a word decodes to. The fallback names the no-op of the spec, if it has one. -/
inductive Operation where
  | decoded (instr : Instruction) (fields : List FieldValue)
  | fallback (nop : Option Instruction)
  deriving DecidableEq, Repr

namespace Operation

def instruction? : Operation → Option Instruction
  | .decoded instr _ => some instr
  | .fallback nop => nop

def name (op : Operation) : String := (op.instruction?.map (·.name)).getD fallbackName

def mnemonic (op : Operation) : String := (op.instruction?.map (·.mnemonic)).getD fallbackName

def fields : Operation → List FieldValue
  | .decoded _ fields => fields
  | .fallback _ => []

def field? (op : Operation) (name : String) : Option Word :=
  (op.fields.find? (·.name == name)).map (·.value)

def isFallback : Operation → Bool
  | .decoded .. => false
  | .fallback _ => true

/-- The width of the encoding; the fallback takes one word whatever its no-op looks like. -/
def width : Operation → Width
  | .decoded instr _ => instr.width
  | .fallback _ => .bits16

def wordCount (op : Operation) : Nat := if op.width = .bits32 then 2 else 1

def render (op : Operation) : String :=
  match op.fields with
  | [] => op.name
  | fields => op.name ++ " " ++ ", ".intercalate (fields.map FieldValue.render)

end Operation

/-- A main instruction with its extension. -/
structure Decoded where
  main : Operation
  hasExtension : Bool
  extension : Operation
  deriving DecidableEq, Repr

/-- The least top nibble of a word whose low byte is an extension. -/
def extensionNibble : Nat := 4

/-- An instruction with the sources of its operands. -/
structure Layout where
  instruction : Instruction
  sources : List OperandSource
  deriving DecidableEq, Repr

namespace Layout

def ofInstruction (instr : Instruction) : Except StraddlingOperand Layout :=
  (OperandSource.resolveAll instr).map fun sources => ⟨instr, sources⟩

def read (layout : Layout) (first second : Word) : Operation :=
  .decoded layout.instruction
    (List.zipWith (fun name source => ⟨name, source.read first second⟩)
      layout.instruction.fieldNames layout.sources)

end Layout

structure Decoder where
  tree : DecisionTree
  table : ExtensionTable
  main : List Layout
  extensions : List Layout
  mainNop : Option Instruction
  extensionNop : Option Instruction
  deriving Repr

namespace Decoder

/-- A decoder for a document, unless an operand lies in two words. -/
def ofDocument (doc : Document) : Except StraddlingOperand Decoder := do
  let main ← doc.instructions.mapM Layout.ofInstruction
  let extensions ← doc.extensions.mapM Layout.ofInstruction
  return {
    tree := .build doc.instructions
    table := .build doc.extensions
    main
    extensions
    mainNop := doc.instruction? fallbackName
    extensionNop := doc.extension? fallbackName }

/-- What is logged when the decoder is made. -/
def records (decoder : Decoder) : List LogRecord :=
  decoder.tree.records ++ decoder.table.records

def decodeMain (decoder : Decoder) (first second : Word) : Operation :=
  match (decoder.tree.lookup first).bind fun index => decoder.main[index]? with
  | some layout => layout.read first second
  | none => .fallback decoder.mainNop

def decodeExtension (decoder : Decoder) (word : Word) : Operation :=
  let byte := (word &&& 0xFF#16).toNat
  match (decoder.table.owner? byte).bind fun index => decoder.extensions[index]? with
  | some layout => layout.read word 0#16
  | none => .fallback decoder.extensionNop

def decode (decoder : Decoder) (first second : Word) : Decoded :=
  let main := decoder.decodeMain first second
  if extensionNibble ≤ (first >>> 12).toNat then ⟨main, true, decoder.decodeExtension first⟩
  else ⟨main, false, .fallback decoder.extensionNop⟩

end Decoder

end DspIsa
