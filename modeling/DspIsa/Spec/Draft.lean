import DspIsa.Spec.Reader

/-! A spec written line by line, and read back by the ordinary reader. -/
namespace DspIsa.Spec

structure Draft where
  path : String
  lines : List String
  deriving DecidableEq, Repr

namespace Draft

def empty (path : String) : Draft := ⟨path, []⟩

def addLine (draft : Draft) (line : String) : Draft :=
  { draft with lines := draft.lines ++ [line] }

def comment (draft : Draft) (text : String) : Draft := draft.addLine ("# " ++ text)

def instruction (draft : Draft) (opcode pattern : String) : Draft :=
  draft.addLine (opcode ++ " * " ++ pattern)

/-- An extension line; the groups of the main word are filled with operand marks. -/
def extension (draft : Draft) (opcode pattern : String) : Draft :=
  draft.addLine ("'" ++ opcode ++ " * xxxx xxxx " ++ pattern)

def source (draft : Draft) : String := "\n".intercalate draft.lines ++ "\n"

def build (draft : Draft) : Except SpecError Document := parse draft.path draft.source

end Draft

end DspIsa.Spec
