import DspIsa.Document
import DspIsa.Error

/-! Checks that a spec has to pass before it is used: no two main instructions of one width may
claim the same encoding, and no operand may lie in two words. Extensions are not checked. -/
namespace DspIsa

/-- Two instructions that agree on every bit both fix. -/
structure Overlap where
  first : Instruction
  second : Instruction
  commonMask : Code
  deriving DecidableEq, Repr

namespace Overlap

def between? (first second : Instruction) : Option Overlap :=
  let common := first.fixedMask &&& second.fixedMask
  if first.width = second.width ∧ common ≠ 0#32 ∧
      first.fixedValue &&& common = second.fixedValue &&& common then
    some ⟨first, second, common⟩
  else none

/-- The overlapping pairs, ordered by the earlier and then by the later instruction. -/
def find : List Instruction → List Overlap
  | [] => []
  | first :: rest => rest.filterMap (between? first) ++ find rest

def message (overlap : Overlap) : String :=
  let bits (instr : Instruction) : String :=
    instr.name ++ ": fixed_mask=" ++ overlap.first.hexCode instr.fixedMask ++
      ", fixed_value=" ++ overlap.first.hexCode instr.fixedValue
  s!"instructions '{overlap.first.name}' and '{overlap.second.name}' " ++
    "have overlapping encodings: " ++ bits overlap.first ++ "; " ++ bits overlap.second ++
    "; common fixed bits: " ++ overlap.first.hexCode overlap.commonMask

def report (overlap : Overlap) : Diagnostic where
  phase := .validation
  severity := .error
  code := "validation.overlapping-encoding"
  message := overlap.message
  span := some overlap.second.span

end Overlap

namespace Instruction

/-- The operands of a two-word instruction that lie in both words. -/
def straddling (instr : Instruction) : List StraddlingOperand :=
  if instr.width = .bits32 then
    (instr.operands.filter fun operand => operand.low < 16 && 16 ≤ operand.high).map
      fun operand => ⟨instr.name, operand.symbol, operand.low, operand.high⟩
  else []

def layoutReports (instr : Instruction) : List Diagnostic :=
  instr.straddling.map fun operand => {
    phase := .validation
    severity := .error
    code := "validation.straddling-operand"
    message := operand.message
    span := some instr.span }

end Instruction

/-- A check in progress: the reports that have not been handed out yet. -/
structure Validator where
  pending : List Diagnostic
  deriving DecidableEq, Repr

namespace Validator

def new : Validator := ⟨[]⟩

/-- Checks a document and hands out every pending report. -/
def validate (validator : Validator) (doc : Document) : Except SpecError Unit × Validator :=
  let pending := validator.pending ++ (Overlap.find doc.instructions).map Overlap.report ++
    doc.instructions.flatMap Instruction.layoutReports
  if pending.isEmpty then (.ok (), ⟨pending⟩)
  else (.error (.diagnostics .validation pending), ⟨[]⟩)

end Validator

end DspIsa
