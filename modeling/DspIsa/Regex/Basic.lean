import DspIsa.Regex.Anchor
import DspIsa.Regex.Symbols

/-! Regular expressions. -/
namespace DspIsa

inductive Regex where
  | empty
  | symbol (symbols : Regex.Symbols)
  | anchor (anchor : Regex.Anchor)
  /-- An edge of a word in any script. No place is known to be one. -/
  | scriptEdge (edge : Regex.WordEdge)
  | capture (body : Regex)
  | sequence (first second : Regex)
  | choice (first second : Regex)
  | repetition (low : Nat) (high : Option Nat) (body : Regex)
  deriving DecidableEq, Repr

namespace Regex

/-- Whether only the empty text can match. -/
def isWidthless : Regex → Bool
  | .empty => true
  | .symbol _ => false
  | .anchor _ => true
  | .scriptEdge _ => true
  | .capture body => body.isWidthless
  | .sequence first second => first.isWidthless && second.isWidthless
  | .choice first second => first.isWidthless && second.isWidthless
  | .repetition _ high body => high = some 0 || body.isWidthless

/-- A repetition. What takes no width is repeated once at most, and no repetition is no condition
at all. -/
def repeated (low : Nat) (high : Option Nat) (body : Regex) : Regex :=
  let (low, high) :=
    if body.isWidthless then (min low 1, some (min (high.getD 1) 1)) else (low, high)
  if high = some 0 then .empty
  else if low = 1 ∧ high = some 1 then body
  else .repetition low high body

/-- Whether a part asks for an edge of a word in any script. -/
def hasScriptEdge : Regex → Bool
  | .empty => false
  | .symbol _ => false
  | .anchor _ => false
  | .scriptEdge _ => true
  | .capture body => body.hasScriptEdge
  | .sequence first second => first.hasScriptEdge || second.hasScriptEdge
  | .choice first second => first.hasScriptEdge || second.hasScriptEdge
  | .repetition _ _ body => body.hasScriptEdge

end Regex

end DspIsa
