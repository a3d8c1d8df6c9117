import DspIsa.Regex.Anchor
import DspIsa.Source

/-! Regular expressions as they are written: every part knows where it stands. -/
namespace DspIsa.Regex

/-- A stretch of an expression; `stop` is the first position behind it. -/
structure Extent where
  start : Position
  stop : Position
  deriving DecidableEq, Repr

def Extent.point (position : Position) : Extent := ⟨position, position⟩

/-- The ways of reading an expression that it can switch itself. -/
inductive Mode where
  | anyCase
  | lines
  | dotAll
  | lazy
  | scripts
  | returns
  | spaced
  deriving DecidableEq, Repr

namespace Mode

def ofLetter? : Char → Option Mode
  | 'i' => some .anyCase
  | 'm' => some .lines
  | 's' => some .dotAll
  | 'U' => some .lazy
  | 'u' => some .scripts
  | 'R' => some .returns
  | 'x' => some .spaced
  | _ => none

end Mode

/-- A mode in a list of modes, or the minus in front of the modes that are switched off. -/
structure ModeItem where
  extent : Extent
  mode : Option Mode
  deriving DecidableEq, Repr

/-- What a list of modes says about one of them. -/
def ModeItem.setting? (mode : Mode) (items : List ModeItem) : Option Bool :=
  if items.any (·.mode = some mode) then
    some ((items.takeWhile (·.mode ≠ some mode)).all (·.mode ≠ none))
  else none

/-- A character that stands for itself or is written by an escape. The escapes of two hexadecimal
digits mean a byte. -/
structure Literal where
  extent : Extent
  char : Char
  isByte : Bool
  deriving DecidableEq, Repr

/-- The classes that are written by one letter behind a backslash. -/
inductive Shorthand where
  | digit
  | space
  | word
  deriving DecidableEq, Repr

/-- The classes that are written by a name between colons. -/
inductive NamedClass where
  | alnum
  | alpha
  | ascii
  | blank
  | cntrl
  | digit
  | graph
  | lower
  | print
  | punct
  | space
  | upper
  | word
  | xdigit
  deriving DecidableEq, Repr

namespace NamedClass

def ofName? : String → Option NamedClass
  | "alnum" => some .alnum
  | "alpha" => some .alpha
  | "ascii" => some .ascii
  | "blank" => some .blank
  | "cntrl" => some .cntrl
  | "digit" => some .digit
  | "graph" => some .graph
  | "lower" => some .lower
  | "print" => some .print
  | "punct" => some .punct
  | "space" => some .space
  | "upper" => some .upper
  | "word" => some .word
  | "xdigit" => some .xdigit
  | _ => none

def ranges : NamedClass → List (Char × Char)
  | .alnum => [('0', '9'), ('A', 'Z'), ('a', 'z')]
  | .alpha => [('A', 'Z'), ('a', 'z')]
  | .ascii => [('\x00', '\x7f')]
  | .blank => [('\t', '\t'), (' ', ' ')]
  | .cntrl => [('\x00', '\x1f'), ('\x7f', '\x7f')]
  | .digit => [('0', '9')]
  | .graph => [('!', '~')]
  | .lower => [('a', 'z')]
  | .print => [(' ', '~')]
  | .punct => [('!', '/'), (':', '@'), ('[', '\x60'), ('\x7b', '~')]
  | .space => [('\t', '\r'), (' ', ' ')]
  | .upper => [('A', 'Z')]
  | .word => [('0', '9'), ('A', 'Z'), ('_', '_'), ('a', 'z')]
  | .xdigit => [('0', '9'), ('A', 'F'), ('a', 'f')]

end NamedClass

/-- The classes of one letter have names, too. -/
def Shorthand.named : Shorthand → NamedClass
  | .digit => .digit
  | .space => .space
  | .word => .word

inductive SetOperator where
  | intersection
  | difference
  | exclusive
  deriving DecidableEq, Repr

/-- What stands between brackets. -/
inductive Member where
  | blank (extent : Extent)
  | literal (literal : Literal)
  | range (extent : Extent) (low high : Literal)
  | named (extent : Extent) (negated : Bool) (cls : NamedClass)
  | shorthand (extent : Extent) (negated : Bool) (cls : Shorthand)
  | property (extent : Extent) (name : String)
  | bracket (extent : Extent) (negated : Bool) (content : Member)
  | operation (extent : Extent) (operator : SetOperator) (left right : Member)
  | union (extent : Extent) (members : List Member)

def Member.extent : Member → Extent
  | .blank extent => extent
  | .literal written => written.extent
  | .range extent _ _ => extent
  | .named extent _ _ => extent
  | .shorthand extent _ _ => extent
  | .property extent _ => extent
  | .bracket extent _ _ => extent
  | .operation extent _ _ _ => extent
  | .union extent _ => extent

/-- The conditions on a place, some of which depend on the modes. -/
inductive WrittenAnchor where
  | caret
  | dollar
  | textStart
  | textStop
  | word (edge : WordEdge)
  deriving DecidableEq, Repr

inductive GroupKind where
  | capture
  | plain (modes : List ModeItem)
  deriving DecidableEq, Repr

inductive Term where
  | empty (extent : Extent)
  | modes (extent : Extent) (items : List ModeItem)
  | literal (literal : Literal)
  | dot (extent : Extent)
  | anchor (extent : Extent) (anchor : WrittenAnchor)
  | shorthand (extent : Extent) (negated : Bool) (cls : Shorthand)
  | property (extent : Extent) (name : String)
  | bracket (extent : Extent) (negated : Bool) (content : Member)
  | repetition (extent : Extent) (low : Nat) (high : Option Nat) (body : Term)
  | group (extent : Extent) (kind : GroupKind) (body : Term)
  | sequence (extent : Extent) (terms : List Term)
  | choice (extent : Extent) (terms : List Term)

def Term.extent : Term → Extent
  | .empty extent => extent
  | .modes extent _ => extent
  | .literal written => written.extent
  | .dot extent => extent
  | .anchor extent _ => extent
  | .shorthand extent _ _ => extent
  | .property extent _ => extent
  | .bracket extent _ _ => extent
  | .repetition extent _ _ _ => extent
  | .group extent _ _ => extent
  | .sequence extent _ => extent
  | .choice extent _ => extent

end DspIsa.Regex
