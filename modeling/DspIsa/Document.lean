import DspIsa.Instruction

/-! A whole spec. Names need not be unique; a look-up by name finds the first. -/
namespace DspIsa

/-- A spec as read: main instructions and extensions, each in line order. -/
structure Document where
  path : String
  digest : String
  instructions : List Instruction
  extensions : List Instruction
  deriving DecidableEq, Repr

namespace Document

def instruction? (doc : Document) (name : String) : Option Instruction :=
  doc.instructions.find? (·.name == name)

def extension? (doc : Document) (name : String) : Option Instruction :=
  doc.extensions.find? (·.name == name)

end Document

end DspIsa
