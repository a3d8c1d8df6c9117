import DspIsa.Regex.Escape

/-! Reading classes of characters in brackets. Brackets stand in brackets, and operators join what
stands between them from the left. -/
namespace DspIsa.Regex

/-- Members in a row, the last one first, and where the row would be if it had none. -/
structure MemberRow where
  place : Extent
  members : List Member

namespace MemberRow

def push (row : MemberRow) (member : Member) : MemberRow :=
  { row with members := member :: row.members }

/-- The members as one. -/
def close (row : MemberRow) : Member :=
  match row.members, row.members.getLast? with
  | [], _ => .blank row.place
  | [member], _ => member
  | last :: earlier, first =>
    .union ⟨(first.getD last).extent.start, last.extent.stop⟩ (last :: earlier).reverse

end MemberRow

/-- An operator that waits for its right side. -/
structure PendingOperation where
  operator : SetOperator
  left : Member

/-- Joins the left side of a pending operator to the members behind it. -/
def PendingOperation.close (pending : Option PendingOperation) (right : Member) : Member :=
  match pending with
  | none => right
  | some ⟨operator, left⟩ =>
    .operation ⟨left.extent.start, right.extent.stop⟩ operator left right

def setOperator? : Char → Option SetOperator
  | '&' => some .intersection
  | '-' => some .difference
  | '~' => some .exclusive
  | _ => none

/-- The named class that a text begins with, whether it is negated, and its length. -/
def namedClass? (text : List Char) : Option (NamedClass × Bool × Nat) :=
  match text with
  | '[' :: ':' :: rest =>
    let negated := rest.head? = some '^'
    let opening := if negated then 3 else 2
    let body := text.drop opening
    let name := body.takeWhile (· ≠ ':')
    if [':', ']'].isPrefixOf (body.drop name.length) then
      (NamedClass.ofName? (String.ofList name)).map fun cls =>
        (cls, negated, opening + name.length + 2)
    else none
  | _ => none

/-- Reads a named class if one comes next. -/
def readNamedClass : Read (Option Member) := do
  match namedClass? (← get).rest with
  | none => return none
  | some (cls, negated, length) =>
    let start ← here
    modify fun reader => length.repeat Reader.step reader
    return some (.named (← since start) negated cls)

/-- A member of a class that an escape stands for. -/
def memberOf (term : Term) : Read Member :=
  match term with
  | .literal written => return .literal written
  | .shorthand extent negated cls => return .shorthand extent negated cls
  | .property extent name => return .property extent name
  | _ => refuse .escapeInBrackets term.extent

/-- An end of a range. -/
def rangeEnd (term : Term) : Read Literal :=
  match term with
  | .literal written => return written
  | _ => refuse .rangeOfClass term.extent

/-- Reads a character or an escape in brackets. -/
def readSingle : Read Term := do
  match ← peek with
  | some '\\' => readEscape
  | other =>
    let extent ← charExtent
    advance
    return .literal ⟨extent, other.getD '\\', false⟩

/-- Reads a character, an escape or a range. A minus before another one or before the closing
bracket makes no range. -/
def readMember (opening : Extent) : Read Member := do
  let low ← readSingle
  skipSpace
  match ← peek with
  | none => refuse .bracketOpen opening
  | some '-' =>
    let behind := (← get).secondUnspaced?
    if behind = some ']' ∨ behind = some '-' then return ← memberOf low
    unless ← advanceOver do refuse .bracketOpen opening
    let high ← readSingle
    let extent : Extent := ⟨low.extent.start, high.extent.stop⟩
    let low ← rangeEnd low
    let high ← rangeEnd high
    if high.char < low.char then refuse .reversedRange extent
    return .range extent low high
  | some _ => memberOf low

/-- Reads the minus signs that open a class, at most a number of them. -/
def readOpeningMinus (start : Position) : Nat → MemberRow → Read MemberRow
  | 0, row => return row
  | count + 1, row => do
    if (← peek) ≠ some '-' then return row
    let extent ← charExtent
    unless ← advanceOver do refuse .bracketOpen (.point start)
    readOpeningMinus start count (row.push (.literal ⟨extent, '-', false⟩))

/-- Reads an opening bracket with what means something else there than behind it. Says whether the
class is negated. -/
def readOpening : Read (Extent × Bool × MemberRow) := do
  let start ← here
  unless ← advanceOver do refuse .bracketOpen (← since start)
  let negated := (← peek) = some '^'
  if negated then
    unless ← advanceOver do refuse .bracketOpen (← since start)
  let row : MemberRow := ⟨.point (← here), []⟩
  let row ← readOpeningMinus start (← get).rest.length row
  if row.members.isEmpty ∧ (← peek) = some ']' then
    let extent ← charExtent
    unless ← advanceOver do refuse .bracketOpen (← since start)
    return (← since start, negated, row.push (.literal ⟨extent, ']', false⟩))
  return (← since start, negated, row)

/-- Reads what is left of a class up to its closing bracket and over it. Every round moves on by a
character at least, so the length of the expression bounds the rounds. -/
def readContent : (rounds : Nat) → (opening : Extent) → (pending : Option PendingOperation) →
    MemberRow → Read Member
  | 0, opening, _, _ => refuse .bracketOpen opening
  | rounds + 1, opening, pending, row => do
    skipSpace
    match ← peek with
    | none => refuse .bracketOpen opening
    | some ']' =>
      advance
      return PendingOperation.close pending row.close
    | some '[' =>
      if let some named ← readNamedClass then
        readContent rounds opening pending (row.push named)
      else
        let (inner, negated, innerRow) ← readOpening
        let content ← readContent rounds inner none innerRow
        let nested := .bracket (← since inner.start) negated content
        readContent rounds opening pending (row.push nested)
    | some c =>
      let doubled := (← get).second? = some c
      match if doubled then setOperator? c else none with
      | some operator =>
        advance
        advance
        let left := PendingOperation.close pending row.close
        readContent rounds opening (some ⟨operator, left⟩) ⟨.point (← here), []⟩
      | none => readContent rounds opening pending (row.push (← readMember opening))

/-- Reads a class from its opening bracket on. -/
def readBracket : Read Term := do
  let rounds := (← get).rest.length + 1
  let (opening, negated, row) ← readOpening
  let content ← readContent rounds opening none row
  return .bracket (← since opening.start) negated content

end DspIsa.Regex
