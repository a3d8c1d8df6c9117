/-! Places in a spec text. Lines and columns count from one, columns in code points. -/
namespace DspIsa

structure Position where
  line : Nat
  column : Nat
  deriving DecidableEq, Repr

/-- A stretch of a named text; `stop` is the first position behind it. -/
structure Span where
  path : String
  start : Position
  stop : Position
  deriving DecidableEq, Repr

namespace Span

def point (path : String) (position : Position) : Span := ⟨path, position, position⟩

/-- The first column of a line. -/
def line (path : String) (number : Nat) : Span := point path ⟨number, 1⟩

def render (span : Span) : String := s!"{span.path}:{span.start.line}:{span.start.column}"

end Span

end DspIsa
