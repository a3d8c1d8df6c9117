import DspIsa.Instruction
import DspIsa.Text.Blank

/-! Bit patterns, written from the highest bit down: `0` and `1` are fixed, any character that
is no digit marks an operand, and a run of one character is one operand. -/
namespace DspIsa

/-- The two places a pattern stands in, which differ in the widths they allow. -/
inductive PatternKind where
  | main
  | extension
  deriving DecidableEq, Repr

namespace PatternKind

def width? : PatternKind → Nat → Option Width
  | .main, 16 => some .bits16
  | .main, 32 => some .bits32
  | .extension, 8 => some .bits8
  | _, _ => none

def expected : PatternKind → String
  | .main => "16 or 32"
  | .extension => "8"

end PatternKind

inductive PatternFault where
  | width (found : Nat) (kind : PatternKind)
  | digit (found : Char) (position : Nat)
  deriving DecidableEq, Repr

def PatternFault.message : PatternFault → String
  | .width found kind => s!"bit pattern has {found} bits; expected {kind.expected}"
  | .digit found position =>
    s!"bit pattern character {position} is the digit '{found}'; only 0 and 1 may be fixed"

structure BitPattern where
  width : Width
  fixedMask : Code
  fixedValue : Code
  operands : List Operand
  deriving DecidableEq, Repr

namespace Pattern

def isFixed (c : Char) : Bool := c == '0' || c == '1'

/-- A digit that is neither zero nor one. -/
def isBadDigit (c : Char) : Bool := c.isDigit && !isFixed c

/-- The bits whose character satisfies `p`; the last character stands for bit zero. -/
def bitsWhere (p : Char → Bool) (chars : List Char) : Code :=
  chars.foldl (fun bits c => (bits <<< 1) ||| if p c then 1#32 else 0#32) 0#32

/-- The runs of operand symbols in a pattern given from bit `low` upwards. -/
def runs (low : Nat) : List Char → List Operand
  | [] => []
  | c :: rest =>
    if c.isDigit then runs (low + 1) rest
    else
      let more := (rest.takeWhile (· == c)).length
      ⟨low, low + more, c⟩ :: runs (low + more + 1) (rest.dropWhile (· == c))
termination_by chars => chars.length
decreasing_by
  · simp
  · exact Nat.lt_succ_of_le (List.dropWhile_sublist _).length_le

end Pattern

/-- Reads a pattern. White space is ignored, and a wrong width is reported before a digit. -/
def BitPattern.scan (kind : PatternKind) (text : String) : Except PatternFault BitPattern :=
  let chars := text.toList.filter fun c => !Text.isBlank c
  match kind.width? chars.length with
  | none => .error (.width chars.length kind)
  | some width =>
    match (chars.zipIdx 1).find? fun entry => Pattern.isBadDigit entry.1 with
    | some (found, position) => .error (.digit found position)
    | none => .ok {
        width
        fixedMask := Pattern.bitsWhere Pattern.isFixed chars
        fixedValue := Pattern.bitsWhere (· == '1') chars
        operands := Pattern.runs 0 chars.reverse }

end DspIsa
