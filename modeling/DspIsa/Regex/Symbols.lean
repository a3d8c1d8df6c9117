/-! Sets of characters, built from ranges. -/
namespace DspIsa.Regex

inductive Symbols where
  | none
  | range (low high : Char)
  | union (first second : Symbols)
  | intersection (first second : Symbols)
  | difference (first second : Symbols)
  | exclusive (first second : Symbols)
  | complement (symbols : Symbols)
  | anyCase (symbols : Symbols)
  deriving DecidableEq, Repr

/-- The capital of a small Latin letter and the small letter of a capital. -/
def otherCase (c : Char) : Char := if c.isLower then c.toUpper else c.toLower

namespace Symbols

def single (c : Char) : Symbols := .range c c

def ofRanges (ranges : List (Char × Char)) : Symbols :=
  ranges.foldr (fun (low, high) others => .union (.range low high) others) .none

/-- Every character but the given ones. -/
def allBut (chars : List Char) : Symbols := .complement (.ofRanges (chars.map fun c => (c, c)))

def contains : Symbols → Char → Bool
  | .none, _ => false
  | .range low high, c => low ≤ c && c ≤ high
  | .union first second, c => first.contains c || second.contains c
  | .intersection first second, c => first.contains c && second.contains c
  | .difference first second, c => first.contains c && !second.contains c
  | .exclusive first second, c => first.contains c != second.contains c
  | .complement symbols, c => !symbols.contains c
  | .anyCase symbols, c => symbols.contains c || symbols.contains (otherCase c)

/-- The character of a set that is built as a single one. -/
def single? : Symbols → Option Char
  | .range low high => if low = high then some low else Option.none
  | _ => Option.none

/-- The number of ranges that the set is built from. -/
def rangeCount : Symbols → Nat
  | .none => 0
  | .range _ _ => 1
  | .union first second => first.rangeCount + second.rangeCount
  | .intersection first second => first.rangeCount + second.rangeCount
  | .difference first second => first.rangeCount + second.rangeCount
  | .exclusive first second => first.rangeCount + second.rangeCount
  | .complement symbols => symbols.rangeCount + 1
  | .anyCase symbols => 2 * symbols.rangeCount

/-- Whether a set is built without a step beyond ASCII, and so holds nothing else. -/
def isAscii : Symbols → Bool
  | .none => true
  | .range _ high => high ≤ '\x7f'
  | .union first second => first.isAscii && second.isAscii
  | .intersection first second => first.isAscii || second.isAscii
  | .difference first _ => first.isAscii
  | .exclusive first second => first.isAscii && second.isAscii
  | .complement _ => false
  | .anyCase symbols => symbols.isAscii

end Symbols

end DspIsa.Regex
