import DspIsa.Regex.Basic

/-! The room that a search machine for a regular expression takes. There are two of them: one reads
a text forwards and marks groups, the other one reads it backwards. -/
namespace DspIsa.Regex

inductive Direction where
  | forwards
  | backwards
  deriving DecidableEq, Repr

/-- The bytes of a state. -/
def stateSize : Nat := 32

/-- The bytes of a branching state, four of them for each way. -/
def branchSize (ways : Nat) : Nat := stateSize + 4 * ways

/-- The bytes for a set of characters. A single character has one state for each byte of its
encoding, and a set of ASCII has one for all. For any other set there is room for the ten forms of
encodings, which share their ends when they are read forwards. -/
def symbolSize (direction : Direction) (symbols : Symbols) : Nat :=
  match symbols.single?, direction with
  | some c, _ => stateSize * c.utf8Size
  | none, direction =>
    if symbols.isAscii then 2 * stateSize + 8 * symbols.rangeCount
    else
      match direction with
      | .forwards => 9 * stateSize + 8 * 17
      | .backwards => 29 * stateSize + branchSize 10

/-- The bytes for an expression. A counted repetition repeats the states of its body. -/
def size (direction : Direction) : Regex → Nat
  | .empty => 0
  | .symbol symbols => symbolSize direction symbols
  | .anchor _ => stateSize
  | .scriptEdge _ => stateSize
  | .capture body =>
    match direction with
    | .forwards => body.size direction + 2 * stateSize
    | .backwards => body.size direction
  | .sequence first second => first.size direction + second.size direction
  | .choice first second => first.size direction + second.size direction + branchSize 2
  | .repetition low none body => max low 1 * body.size direction + branchSize 2
  | .repetition low (some high) body =>
    low * body.size direction + (high - low) * (body.size direction + branchSize 2) +
      (if low < high then stateSize else 0)

/-- The bytes that a search machine may take. -/
def sizeLimit : Nat := 10 * (1 <<< 20)

/-- Whether a search machine takes too many bytes. Besides the expression it has states that look
for a first character, mark the whole match and accept. -/
def isTooLarge (direction : Direction) (regex : Regex) : Bool :=
  sizeLimit < regex.size direction + 4 * stateSize + branchSize 2

end DspIsa.Regex
