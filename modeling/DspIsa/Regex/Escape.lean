import DspIsa.Regex.Reader
import DspIsa.Text.Hex

/-! What a backslash and the characters behind it stand for. -/
namespace DspIsa.Regex

/-- The characters that mean something of their own. -/
def isMeta (c : Char) : Bool := "\\.+*?()|[]\x7b\x7d^$#&-~".toList.contains c

/-- The characters that stand for themselves behind a backslash. -/
def isEscapable (c : Char) : Bool :=
  isMeta c || (c ≤ '\x7f' && !c.isAlphanum && c ≠ '<' && c ≠ '>')

/-- The characters that have a letter of their own. -/
def control? : Char → Option Char
  | 'a' => some '\x07'
  | 'f' => some '\x0c'
  | 't' => some '\t'
  | 'n' => some '\n'
  | 'r' => some '\r'
  | 'v' => some '\x0b'
  | _ => none

/-- The conditions on a place that have a letter or a sign of their own. -/
def anchor? : Char → Option WrittenAnchor
  | 'A' => some .textStart
  | 'z' => some .textStop
  | 'b' => some (.word .boundary)
  | 'B' => some (.word .noBoundary)
  | '<' => some (.word .start)
  | '>' => some (.word .stop)
  | _ => none

/-- The classes that have a letter of their own. A capital stands for all other characters. -/
def shorthand? : Char → Option (Shorthand × Bool)
  | 'd' => some (.digit, false)
  | 'D' => some (.digit, true)
  | 's' => some (.space, false)
  | 'S' => some (.space, true)
  | 'w' => some (.word, false)
  | 'W' => some (.word, true)
  | _ => none

/-- The number of digits of a character's code point behind the letter that announces it. -/
def codeDigits? : Char → Option Nat
  | 'x' => some 2
  | 'u' => some 4
  | 'U' => some 8
  | _ => none

def isHexDigit (c : Char) : Bool := (Text.hexDigitValue? c).isSome

/-- The character of a code point. -/
def charOf? (digits : List Char) : Option Char := do
  let code ← Text.parseHex? digits
  if code.isValidChar then some (Char.ofNat code) else none

/-- Reads a number of hexadecimal digits. -/
def readHexDigits : Nat → Read (List Char)
  | 0 => return []
  | count + 1 => do
    match ← peek with
    | none => refuse .escapeCut (.point (← here))
    | some c =>
      unless isHexDigit c do refuse .hexDigit (← charExtent)
      let _ ← advanceOver
      return c :: (← readHexDigits count)

/-- Reads the hexadecimal digits up to a closing brace. -/
def readBracedDigits (brace : Position) : Read (List Char) := do
  let digits ← collect isHexDigit
  match ← peek with
  | none => refuse .escapeCut (← since brace)
  | some '\x7d' => return digits
  | some _ => refuse .hexDigit (← charExtent)

/-- Reads a character that is written by its code point, from the letter behind the backslash
on. -/
def readCode (start : Position) (digitCount : Nat) (byte : Bool) : Read Literal := do
  unless ← advanceOver do refuse .escapeCut (.point (← here))
  let first ← here
  if (← peek) = some '\x7b' then
    let inside := (← charExtent).stop
    let _ ← advanceOver
    let digits ← readBracedDigits first
    let stop ← here
    let _ ← advanceOver
    if digits.isEmpty then refuse .hexMissing (← since first)
    match charOf? digits with
    | some c => return ⟨← since start, c, false⟩
    | none => refuse .hexNoCharacter ⟨inside, stop⟩
  else
    let digits ← readHexDigits digitCount
    match charOf? digits with
    | some c => return ⟨← since start, c, byte⟩
    | none => refuse .hexNoCharacter (← since first)

/-- Reads the name of a property, from the letter behind the backslash on. -/
def readProperty (start : Position) : Read Term := do
  unless ← advanceOver do refuse .escapeCut (.point (← here))
  match ← peek with
  | some '\x7b' =>
    let _ ← advanceOver
    let name ← collect (· ≠ '\x7d')
    if (← peek).isNone then refuse .escapeCut (.point (← here))
    advance
    return .property (← since start) (String.ofList name)
  | some '\\' => refuse .propertyUnreadable (← charExtent)
  | other =>
    advance
    return .property (← since start) (String.ofList other.toList)

def isEdgeLetter (c : Char) : Bool := c.isAlpha || c = '-'

def edge? : String → Option WordEdge
  | "start" => some .start
  | "end" => some .stop
  | "start-half" => some .startHalf
  | "end-half" => some .stopHalf
  | _ => none

/-- Reads the edge of a word that braces name behind `\b`. Braces that begin with anything but a
letter count repetitions and are left alone. -/
def readEdge (start : Position) : Read WordEdge := do
  let before ← get
  let brace ← here
  if (← peek) ≠ some '\x7b' then return .boundary
  unless ← advanceOver do refuse .edgeCut (← since start)
  let inside ← here
  if !(← peek).any isEdgeLetter then
    set before
    return .boundary
  let name ← collect isEdgeLetter
  if (← peek) ≠ some '\x7d' then refuse .edgeOpen (← since brace)
  let stop ← here
  advance
  match edge? (String.ofList name) with
  | some edge => return edge
  | none => refuse .edgeUnknown ⟨inside, stop⟩

/-- Reads an escape. -/
def readEscape : Read Term := do
  let start ← here
  advance
  match ← peek with
  | none => refuse .escapeCut (← since start)
  | some c =>
    if c.isDigit then refuse .backReference ⟨start, (← charExtent).stop⟩
    if let some digits := codeDigits? c then return .literal (← readCode start digits (c = 'x'))
    if c = 'p' ∨ c = 'P' then return ← readProperty start
    advance
    let extent ← since start
    if let some (cls, negated) := shorthand? c then return .shorthand extent negated cls
    if isEscapable c then return .literal ⟨extent, c, false⟩
    if let some meant := control? c then return .literal ⟨extent, meant, false⟩
    match anchor? c with
    | some (.word .boundary) =>
      let edge ← readEdge start
      return .anchor (← since start) (.word edge)
    | some written => return .anchor extent written
    | none => refuse .escapeUnknown extent

end DspIsa.Regex
