import DspIsa.Decoder
import DspIsa.Generated.Identifier
import DspIsa.Generated.Program

/-! Assembles the generated decoder of a document. Every table of the decision tree becomes one
dispatch function, the root first and each table before the tables below it. -/
namespace DspIsa.Generated

namespace FieldRead

def ofRange (input : Input) (low high : Nat) : FieldRead :=
  if low = high then .bit input low else .bits input low high

def ofSource : OperandSource → FieldRead
  | .firstWord low high => ofRange .instruction low high
  | .extensionByte low high => ofRange .instruction low high
  | .secondWord low high => ofRange .nextInstruction low high
  | .wholeSecondWord => .whole .nextInstruction

end FieldRead

namespace OpcodeType

/-- The type of an instruction, its highest operand first. -/
def ofInstruction (instr : Instruction) (ident : String) :
    Except StraddlingOperand OpcodeType := do
  let sources ← OperandSource.resolveAll instr
  let fields := List.zipWith (fun name source => ⟨name, .ofSource source⟩) instr.fieldNames sources
  return ⟨ident, instr.width.bits, fields.reverse⟩

/-- The no-op of a document that has none of its own. -/
def bare (ident : String) : OpcodeType := ⟨ident, 16, []⟩

/-- One type per instruction, under the names that `claim` hands out. -/
def declare (claim : TypeNames → String → String × TypeNames) (names : TypeNames) :
    List Instruction → Except StraddlingOperand (List OpcodeType × TypeNames)
  | [] => .ok ([], names)
  | instr :: rest => do
    let (ident, names) := claim names instr.name
    let type ← ofInstruction instr ident
    let (types, names) ← declare claim names rest
    return (type :: types, names)

end OpcodeType

/-- The types of one family of instructions and the one that stands for its no-op. -/
structure Family where
  types : List OpcodeType
  nop : OpcodeType
  deriving DecidableEq, Repr

/-- Picks the no-op among the declared types, or adds one. -/
def Family.complete (claim : TypeNames → String → String × TypeNames) (names : TypeNames)
    (instructions : List Instruction) (types : List OpcodeType) : Family × TypeNames :=
  match (instructions.zip types).find? fun entry => entry.1.name == fallbackName with
  | some (_, nop) => (⟨types, nop⟩, names)
  | none =>
    let (ident, names) := claim names fallbackName
    (⟨types ++ [.bare ident], .bare ident⟩, names)

/-- What a generated decoder is made from. -/
structure Blueprint where
  document : Document
  tree : DecisionTree
  table : ExtensionTable
  main : Family
  extension : Family
  deriving Repr

namespace Blueprint

/-- A blueprint for a document, unless an operand lies in two words. -/
def ofDocument (doc : Document) : Except StraddlingOperand Blueprint := do
  let (mainTypes, names) ← OpcodeType.declare TypeNames.claimMain .empty doc.instructions
  let (extensionTypes, names) ← OpcodeType.declare TypeNames.claimExtension names doc.extensions
  let (main, names) := Family.complete TypeNames.claimMain names doc.instructions mainTypes
  let (extension, _) := Family.complete TypeNames.claimExtension names doc.extensions extensionTypes
  return ⟨doc, .build doc.instructions, .build doc.extensions, main, extension⟩

/-- What is logged when the blueprint is made. -/
def records (blueprint : Blueprint) : List LogRecord :=
  blueprint.tree.records ++ blueprint.table.records

/-- The number of dispatch functions; there is one even without a table. -/
def functionCount (blueprint : Blueprint) : Nat := max 1 blueprint.tree.tableCount

end Blueprint

/-- The lines that pack the bits of a mask into the index of an arm. -/
def indexBits (mask : Word) : List IndexBit :=
  (Bits.setBits mask).zipIdx.map fun (bit, slotBit) => ⟨bit, slotBit⟩

/-- The arms of a table. A nested table gets the next number behind `number`. -/
def arms (family : Family) (number : Nat) : List (DecisionNode × Nat) → List Arm
  | [] => []
  | (.leaf index, slot) :: rest =>
    ⟨slot, .construct (family.types[index]?.getD family.nop)⟩ :: arms family number rest
  | (.table .., slot) :: rest =>
    ⟨slot, .call (tableName (number + 1))⟩ :: arms family (number + 1) rest
  | _ :: rest => arms family number rest

def isTable : DecisionNode → Bool
  | .table .. => true
  | _ => false

/-- The nested tables of a table with their numbers, in slot order. -/
def nested (number : Nat) (slots : Array DecisionNode) : List (DecisionNode × Nat) :=
  ((slots.toList.filter isTable).zipIdx (number + 1))

theorem mem_of_mem_nested {number : Nat} {slots : Array DecisionNode} {entry : DecisionNode × Nat}
    (member : entry ∈ nested number slots) : entry.1 ∈ slots := by
  have inside := List.fst_mem_of_mem_zipIdx member
  exact Array.mem_def.mpr (List.mem_filter.mp inside).1

/-- The function of a table followed by those of the tables below it, with the number of the last
nested name in use. -/
def tableFunctions (family : Family) (name : String) (isPublic : Bool) (number : Nat) :
    DecisionNode → List DispatchFunction × Nat
  | .table mask slots =>
    let body := .dispatch (indexBits mask) (arms family number (DecisionNode.occupied slots))
      family.nop
    let below := (nested number slots).attach.foldl
      (fun state ⟨(child, own), member⟩ =>
        have : sizeOf child < sizeOf slots := Array.sizeOf_lt_of_mem (mem_of_mem_nested member)
        let (functions, used) := tableFunctions family (tableName own) false state.2 child
        (state.1 ++ functions, used))
      ([], number + (nested number slots).length)
    (⟨name, isPublic, body⟩ :: below.1, below.2)
  | _ => ([], number)
termination_by node => sizeOf node

/-- The name of the function that decodes a main instruction. -/
def rootName : String := "decode_instruction"

/-- The dispatch functions of a whole tree. -/
def treeFunctions (family : Family) : DecisionNode → List DispatchFunction
  | .leaf index => [⟨rootName, true, .direct (family.types[index]?.getD family.nop)⟩]
  | .table mask slots => (tableFunctions family rootName true 0 (.table mask slots)).1
  | _ => [⟨rootName, true, .unknown family.nop⟩]

/-- A stretch of bytes with one owner. -/
structure ByteRun where
  first : Nat
  last : Nat
  owner : Nat
  deriving DecidableEq, Repr

namespace ByteRun

/-- Puts a byte in front of the runs behind it, into the first of them if it continues it. -/
def cons (entry : Nat × Nat) : List ByteRun → List ByteRun
  | [] => [⟨entry.1, entry.1, entry.2⟩]
  | run :: rest =>
    if run.owner = entry.2 ∧ entry.1 + 1 = run.first then { run with first := entry.1 } :: rest
    else ⟨entry.1, entry.1, entry.2⟩ :: run :: rest

/-- The longest runs of ascending bytes. -/
def ofCovered (covered : List (Nat × Nat)) : List ByteRun := covered.foldr cons []

end ByteRun

def byteDispatch (table : ExtensionTable) (family : Family) : ByteDispatch where
  arms := (ByteRun.ofCovered table.covered).map fun run =>
    ⟨run.first, run.last, family.types[run.owner]?.getD family.nop⟩
  hasDefault := !table.isComplete

/-- What the caller of the generator may choose. -/
structure Options where
  logTarget : String
  sourceLabel : String
  sourceDigest : Option String
  deriving DecidableEq, Repr

def Options.standard : Options := ⟨"dsp", "defs/dsp/spec", none⟩

def Blueprint.program (blueprint : Blueprint) (options : Options) : Program where
  logTarget := options.logTarget
  sourceLabel := options.sourceLabel
  sourceDigest := options.sourceDigest.getD blueprint.document.digest
  instructionCount := blueprint.document.instructions.length
  extensionCount := blueprint.document.extensions.length
  mainTypes := blueprint.main.types
  extensionTypes := blueprint.extension.types
  extensionNop := blueprint.extension.nop
  byteDispatch := byteDispatch blueprint.table blueprint.extension
  functions := treeFunctions blueprint.main blueprint.tree.root

end DspIsa.Generated
