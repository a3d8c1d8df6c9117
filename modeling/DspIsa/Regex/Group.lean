import DspIsa.Regex.Reader
import DspIsa.Text.Alphanumeric

/-! Reading what stands behind an opening parenthesis: the name of a group, or modes for the group
or for what follows. -/
namespace DspIsa.Regex

/-- What a parenthesis begins: a group, or a setting of modes that ends with its own closing
parenthesis. -/
inductive Opening where
  | group (parenthesis : Extent) (kind : GroupKind)
  | modes (extent : Extent) (items : List ModeItem)

def isNameStart (c : Char) : Bool := c = '_' || Text.isAlphabetic c

def isNameCharacter (c : Char) : Bool :=
  c = '_' || c = '.' || c = '[' || c = ']' || Text.isAlphanumeric c

/-- Reads the characters of a name up to the sign that closes it, at most a number of them. -/
def readNameCharacters (allowed : Char → Bool) : Nat → Read (List Char)
  | 0 => return []
  | count + 1 => do
    match ← peek with
    | none => return []
    | some '>' => return []
    | some c =>
      unless allowed c do refuse .nameCharacter (← charExtent)
      advance
      return c :: (← readNameCharacters isNameCharacter count)

/-- Reads the name of a group, which no earlier group may have, and the sign that closes it. -/
def readName : Read Unit := do
  let start ← here
  let name ← readNameCharacters isNameStart (← get).rest.length
  let extent ← since start
  if (← peek).isNone then refuse .nameCut (.point (← here))
  advance
  if name.isEmpty then refuse .nameMissing (.point start)
  let name := String.ofList name
  if let some earlier := (← get).names.lookup name then refuseAgain .nameTwice extent earlier
  modify fun reader => { reader with names := (name, extent) :: reader.names }

/-- Reads modes up to what ends them, the last one first, at most a number of them. No mode comes
twice, and there is one minus at most. -/
def readModeItems : Nat → List ModeItem → Read (List ModeItem)
  | 0, items => return items
  | count + 1, items => do
    match ← peek with
    | none => refuse .modesCut (.point (← here))
    | some ':' => return items
    | some ')' => return items
    | some c =>
      let extent ← charExtent
      let mode := Mode.ofLetter? c
      if c ≠ '-' ∧ mode = none then refuse .modeUnknown extent
      if let some earlier := items.find? (·.mode = mode) then
        refuseAgain (if c = '-' then .minusTwice else .modeTwice) extent earlier.extent
      advance
      readModeItems count (⟨extent, mode⟩ :: items)

/-- Reads modes. The minus stands in front of a mode. -/
def readModes : Read (List ModeItem) := do
  let items ← readModeItems ((← get).rest.length + 1) []
  if let some last := items.head? then
    if last.mode = none then refuse .minusLast last.extent
  return items.reverse

/-- Reads an opening parenthesis and all that belongs to it. -/
def readOpeningParenthesis : Read Opening := do
  let parenthesis ← charExtent
  advance
  skipSpace
  for sign in ["?=", "?!", "?<=", "?<!"] do
    if ← accept sign then refuse .lookAround (← since parenthesis.start)
  let inside ← here
  for sign in ["?P<", "?<"] do
    if ← accept sign then
      readName
      return .group parenthesis .capture
  if ← accept "?" then
    if (← peek).isNone then refuse .groupOpen parenthesis
    let items ← readModes
    let closed := (← peek) = some ')'
    advance
    if !closed then return .group parenthesis (.plain items)
    if items.isEmpty then refuse .nothingToRepeat (.point inside)
    return .modes (← since parenthesis.start) items
  return .group parenthesis .capture

end DspIsa.Regex
