import DspIsa.Regex.Bracket
import DspIsa.Regex.Group
import DspIsa.Regex.Nesting

/-! Reading a whole expression into the term that it writes. -/
namespace DspIsa.Regex

/-- The terms between two bars, the last one first. -/
structure Branch where
  start : Position
  terms : List Term

namespace Branch

def push (branch : Branch) (term : Term) : Branch :=
  { branch with terms := term :: branch.terms }

/-- The terms as one that ends at a position. -/
def close (branch : Branch) (stop : Position) : Term :=
  match branch.terms with
  | [] => .empty ⟨branch.start, stop⟩
  | [term] => term
  | terms => .sequence ⟨branch.start, stop⟩ terms.reverse

/-- The last term, which is to be repeated, and the branch without it. A setting of modes cannot be
repeated. -/
def popOperand (branch : Branch) : Read (Term × Branch) := do
  match branch.terms with
  | [] => refuse .nothingToRepeat (.point (← here))
  | .modes _ _ :: _ => refuse .nothingToRepeat (.point (← here))
  | term :: terms => return (term, { branch with terms })

end Branch

/-- The branches of a choice, the last one first, and where the first one begins. -/
structure Branches where
  start : Position
  closed : List Term

/-- The choice between the branches and a last one. -/
def Branches.close (branches : Branches) (last : Branch) (stop : Position) : Term :=
  match branches.closed with
  | [] => last.close stop
  | closed => .choice ⟨branches.start, stop⟩ (last.close stop :: closed).reverse

/-- The bounds that a sign sets on the number of repetitions. -/
def countsOf? : Char → Option (Nat × Option Nat)
  | '?' => some (0, some 1)
  | '*' => some (0, none)
  | '+' => some (1, none)
  | _ => none

/-- Reads a sign of repetition. A question mark behind it makes no difference to what matches. -/
def readRepetition (counts : Nat × Option Nat) (branch : Branch) : Read Branch := do
  let (body, branch) ← branch.popOperand
  advance
  let _ ← accept "?"
  return branch.push (.repetition (← since body.extent.start) counts.1 counts.2 body)

/-- The number that digits write, or what is wrong with it. It has 32 bits at most. -/
def decimalOf (digits : List Char) (extent : Extent) : Except Mistake Nat :=
  if digits.isEmpty then .error ⟨.countMissing, extent, none⟩
  else
    let value := digits.foldl (fun value c => 10 * value + (c.toNat - '0'.toNat)) 0
    if value < UInt32.size then .ok value else .error ⟨.decimalTooLarge, extent, none⟩

/-- Reads a number between blanks. Whether there is one is for the caller to ask. -/
def readDecimal : Read (Except Mistake Nat) := do
  let _ ← collect Text.isBlank
  let start ← here
  let digits ← collect Char.isDigit
  let extent ← since start
  let _ ← collect Text.isBlank
  return decimalOf digits extent

/-- Reads the bounds of a counted repetition behind its opening brace. -/
def readCounts (brace : Position) : Read (Nat × Option Nat) := do
  unless ← advanceOver do refuse .countOpen (← since brace)
  let low ← readDecimal
  match ← peek with
  | none => refuse .countOpen (← since brace)
  | some ',' =>
    unless ← advanceOver do refuse .countOpen (← since brace)
    let low ← low
    if (← peek) = some '\x7d' then return (low, none)
    let high ← readDecimal
    return (low, some (← high))
  | some _ =>
    let low ← low
    return (low, some low)

/-- Reads a counted repetition. -/
def readCountedRepetition (branch : Branch) : Read Branch := do
  let brace ← here
  let (body, branch) ← branch.popOperand
  let (low, high) ← readCounts brace
  if (← peek) ≠ some '\x7d' then refuse .countOpen (← since brace)
  if ← advanceOver then
    let _ ← accept "?"
  if high.any (· < low) then refuse .reversedCount (← since brace)
  return branch.push (.repetition (← since body.extent.start) low high body)

/-- Reads a character or an escape. -/
def readSimple (c : Char) : Read Term := do
  if c = '\\' then return ← readEscape
  let extent ← charExtent
  advance
  match c with
  | '.' => return .dot extent
  | '^' => return .anchor extent .caret
  | '$' => return .anchor extent .dollar
  | _ => return .literal ⟨extent, c, false⟩

def setSpaced (spaced : Bool) : Read Unit := modify fun reader => { reader with spaced }

/-- Reads up to the closing parenthesis of a group, or to the end of the expression if it is in no
group. Every round moves on by a character at least, so the length of the expression bounds the
rounds. -/
def readBranches : (rounds : Nat) → (group : Option Extent) → Branches → Branch → Read Term
  | 0, _, branches, branch => return branches.close branch (← here)
  | rounds + 1, group, branches, branch => do
    skipSpace
    match ← peek with
    | none =>
      if let some parenthesis := group then refuse .groupOpen parenthesis
      return branches.close branch (← here)
    | some ')' =>
      if group.isNone then refuse .groupNotOpen (← charExtent)
      return branches.close branch (← here)
    | some '|' =>
      let closed := branch.close (← here)
      advance
      readBranches rounds group { branches with closed := closed :: branches.closed }
        ⟨← here, []⟩
    | some '(' =>
      match ← readOpeningParenthesis with
      | .modes extent items =>
        if let some spaced := ModeItem.setting? .spaced items then setSpaced spaced
        readBranches rounds group branches (branch.push (.modes extent items))
      | .group parenthesis kind =>
        let outer := (← get).spaced
        if let .plain items := kind then
          setSpaced ((ModeItem.setting? .spaced items).getD outer)
        let start ← here
        let body ← readBranches rounds (some parenthesis) ⟨start, []⟩ ⟨start, []⟩
        setSpaced outer
        advance
        let extent ← since parenthesis.start
        readBranches rounds group branches (branch.push (.group extent kind body))
    | some '[' =>
      readBranches rounds group branches (branch.push (← readBracket))
    | some '\x7b' => readBranches rounds group branches (← readCountedRepetition branch)
    | some c =>
      match countsOf? c with
      | some counts => readBranches rounds group branches (← readRepetition counts branch)
      | none => readBranches rounds group branches (branch.push (← readSimple c))

/-- Reads an expression. -/
def Term.ofText (expression : String) : Except Mistake Term := do
  let reader := Reader.ofText expression
  let rounds := expression.length + 1
  let start := reader.position
  let (term, _) ← (readBranches rounds none ⟨start, []⟩ ⟨start, []⟩).run reader
  match term.tooDeep? 0 with
  | some extent => .error ⟨.nesting, extent, none⟩
  | none => .ok term

end DspIsa.Regex
