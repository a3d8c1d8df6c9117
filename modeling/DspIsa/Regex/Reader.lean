import DspIsa.Regex.Mistake
import DspIsa.Text.Blank

/-! Reading an expression from its start to its end. Where the expression is spaced, white space in
it means nothing and `#` opens a comment that ends with its line. -/
namespace DspIsa.Regex

/-- What is left of the expression, where it begins, whether it is spaced, and the names of the
groups so far. -/
structure Reader where
  rest : List Char
  position : Position
  spaced : Bool
  names : List (String × Extent)
  deriving DecidableEq, Repr

/-- The position behind a character. -/
def positionAfter (position : Position) (c : Char) : Position :=
  if c = '\n' then ⟨position.line + 1, 1⟩ else ⟨position.line, position.column + 1⟩

namespace Reader

def ofText (expression : String) : Reader := ⟨expression.toList, ⟨1, 1⟩, false, []⟩

/-- Moves over a character. -/
def step (reader : Reader) : Reader :=
  match reader.rest with
  | [] => reader
  | c :: rest => { reader with rest, position := positionAfter reader.position c }

/-- Where the next thing that means something is, in or outside a comment. -/
def skipped (comment : Bool) (position : Position) : List Char → List Char × Position
  | [] => ([], position)
  | c :: rest =>
    if comment then skipped (c ≠ '\n') (positionAfter position c) rest
    else if Text.isBlank c then skipped false (positionAfter position c) rest
    else if c = '#' then skipped true (positionAfter position c) rest
    else (c :: rest, position)

def skipSpace (reader : Reader) : Reader :=
  if reader.spaced then
    let (rest, position) := skipped false reader.position reader.rest
    { reader with rest, position }
  else reader

/-- The extent of the next character. -/
def charExtent (reader : Reader) : Extent := ⟨reader.position, reader.step.position⟩

/-- The character behind the next one. -/
def second? (reader : Reader) : Option Char := reader.step.rest.head?

/-- The first character behind the next one that is no space. The `#` of a comment is passed over
and its text is not. -/
def secondUnspaced? (reader : Reader) : Option Char :=
  if reader.spaced then
    let behind := reader.step.rest
    let shown := match behind.dropWhile Text.isBlank with
      | '#' :: comment => comment.dropWhile Text.isBlank
      | shown => shown
    shown.head?.or behind.head?
  else reader.second?

end Reader

abbrev Read := StateT Reader (Except Mistake)

def refuse {α : Type} (fault : Fault) (extent : Extent) : Read α := throw ⟨fault, extent, none⟩

/-- Refuses something that does not go together with something earlier. -/
def refuseAgain {α : Type} (fault : Fault) (extent earlier : Extent) : Read α :=
  throw ⟨fault, extent, some earlier⟩

def here : Read Position := return (← get).position

def peek : Read (Option Char) := return (← get).rest.head?

/-- The stretch from a position to the current one. -/
def since (start : Position) : Read Extent := return ⟨start, ← here⟩

def charExtent : Read Extent := return (← get).charExtent

def advance : Read Unit := modify Reader.step

def skipSpace : Read Unit := modify Reader.skipSpace

/-- Moves over a character and the space behind it. Says whether anything is left. -/
def advanceOver : Read Bool := do
  modify fun reader => reader.step.skipSpace
  return (← peek).isSome

/-- Moves over a text if it comes next. -/
def accept (text : String) : Read Bool := do
  if text.toList.isPrefixOf (← get).rest then
    modify fun reader => text.toList.foldl (fun reader _ => reader.step) reader
    return true
  else return false

/-- The characters that satisfy `p` and come next, at most a number of them. -/
def collectUpTo (p : Char → Bool) : Nat → Read (List Char)
  | 0 => return []
  | count + 1 => do
    match ← peek with
    | some c =>
      if p c then
        let _ ← advanceOver
        return c :: (← collectUpTo p count)
      else return []
    | none => return []

/-- The characters that satisfy `p` and come next, without the space between them. -/
def collect (p : Char → Bool) : Read (List Char) := do collectUpTo p (← get).rest.length

end DspIsa.Regex
