/-! Conditions on a place in a text that depend on the characters beside it. -/
namespace DspIsa.Regex

/-- A way in which a word can stand at a place. -/
inductive WordEdge where
  | boundary
  | noBoundary
  | start
  | stop
  | startHalf
  | stopHalf
  deriving DecidableEq, Repr

namespace WordEdge

/-- Whether the place is such an edge, for whether a word character stands before and after it. -/
def holds : WordEdge → (before after : Bool) → Bool
  | .boundary, before, after => before != after
  | .noBoundary, before, after => before == after
  | .start, before, after => !before && after
  | .stop, before, after => before && !after
  | .startHalf, before, _ => !before
  | .stopHalf, _, after => !after

end WordEdge

/-- Lines end at `\n`, or with `returns` also at `\r` and at the two together. -/
inductive Anchor where
  | textStart
  | textStop
  | lineStart (returns : Bool)
  | lineStop (returns : Bool)
  | word (edge : WordEdge)
  deriving DecidableEq, Repr

/-- A letter, digit or underscore of ASCII. -/
def isWordSymbol (c : Char) : Bool := c.isAlphanum || c = '_'

namespace Anchor

/-- Whether a place between two characters satisfies the condition. Either end of the text has no
character beside it. -/
def holds : Anchor → (before after : Option Char) → Bool
  | .textStart, before, _ => before.isNone
  | .textStop, _, after => after.isNone
  | .lineStart false, before, _ => before.all (· = '\n')
  | .lineStart true, before, after =>
    before.all (· = '\n') || (before = some '\r' && after != some '\n')
  | .lineStop false, _, after => after.all (· = '\n')
  | .lineStop true, before, after =>
    after.all (· = '\r') || (after = some '\n' && before != some '\r')
  | .word edge, before, after => edge.holds (before.any isWordSymbol) (after.any isWordSymbol)

end Anchor

end DspIsa.Regex
