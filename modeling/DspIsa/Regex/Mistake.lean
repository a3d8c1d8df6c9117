import DspIsa.Regex.Nesting

/-! What can be wrong with a written expression, and how it is shown. -/
namespace DspIsa.Regex

inductive Fault where
  | escapeInBrackets
  | reversedRange
  | rangeOfClass
  | bracketOpen
  | decimalTooLarge
  | hexMissing
  | hexNoCharacter
  | hexDigit
  | escapeCut
  | escapeUnknown
  | minusLast
  | modeTwice
  | minusTwice
  | modesCut
  | modeUnknown
  | nameTwice
  | nameMissing
  | nameCharacter
  | nameCut
  | groupOpen
  | groupNotOpen
  | nesting
  | reversedCount
  | countMissing
  | countOpen
  | nothingToRepeat
  | edgeOpen
  | edgeUnknown
  | edgeCut
  | propertyUnreadable
  | backReference
  | lookAround
  | scriptsOff
  | brokenEncoding
  | propertyUnknown
  | propertyValueUnknown
  | shorthandUnknown
  | caseUnknown
  deriving DecidableEq, Repr

namespace Fault

def message : Fault → String
  | .escapeInBrackets => "invalid escape sequence found in character class"
  | .reversedRange => "invalid character class range, the start must be <= the end"
  | .rangeOfClass => "invalid range boundary, must be a literal"
  | .bracketOpen => "unclosed character class"
  | .decimalTooLarge => "decimal literal invalid"
  | .hexMissing => "hexadecimal literal empty"
  | .hexNoCharacter => "hexadecimal literal is not a Unicode scalar value"
  | .hexDigit => "invalid hexadecimal digit"
  | .escapeCut => "incomplete escape sequence, reached end of pattern prematurely"
  | .escapeUnknown => "unrecognized escape sequence"
  | .minusLast => "dangling flag negation operator"
  | .modeTwice => "duplicate flag"
  | .minusTwice => "flag negation operator repeated"
  | .modesCut => "expected flag but got end of regex"
  | .modeUnknown => "unrecognized flag"
  | .nameTwice => "duplicate capture group name"
  | .nameMissing => "empty capture group name"
  | .nameCharacter => "invalid capture group character"
  | .nameCut => "unclosed capture group name"
  | .groupOpen => "unclosed group"
  | .groupNotOpen => "unopened group"
  | .nesting => s!"exceed the maximum number of nested parentheses/brackets ({nestingLimit})"
  | .reversedCount => "invalid repetition count range, the start must be <= the end"
  | .countMissing => "repetition quantifier expects a valid decimal"
  | .countOpen => "unclosed counted repetition"
  | .nothingToRepeat => "repetition operator missing expression"
  | .edgeOpen =>
    "special word boundary assertion is either unclosed or contains an invalid character"
  | .edgeUnknown => "unrecognized special word boundary assertion, valid choices are: " ++
    "start, end, start-half or end-half"
  | .edgeCut => "found either the beginning of a special word boundary or a bounded repetition " ++
    "on a \\b with an opening brace, but no closing brace"
  | .propertyUnreadable => "invalid Unicode character class"
  | .backReference => "backreferences are not supported"
  | .lookAround => "look-around, including look-ahead and look-behind, is not supported"
  | .scriptsOff => "Unicode not allowed here"
  | .brokenEncoding => "pattern can match invalid UTF-8"
  | .propertyUnknown => "Unicode property not found"
  | .propertyValueUnknown => "Unicode property value not found"
  | .shorthandUnknown => "Unicode-aware Perl class not found " ++
    "(make sure the unicode-perl feature is enabled)"
  | .caseUnknown => "Unicode-aware case insensitivity matching is not available " ++
    "(make sure the unicode-case feature is enabled)"

end Fault

/-- A fault and where it is. Some faults are about a second place. -/
structure Mistake where
  fault : Fault
  extent : Extent
  other : Option Extent
  deriving DecidableEq, Repr

/-- The lines of an expression. A line break at its end begins no line. -/
def linesOf (expression : String) : List String :=
  let lines := expression.splitOn "\n"
  let complete := lines.dropLast.map fun line =>
    match line.toList.getLast? with
    | some '\r' => String.ofList line.toList.dropLast
    | _ => line
  complete ++ lines.getLast?.toList.filter (· ≠ "")

/-- Whether an extent begins before another or, at the same position, ends before it. -/
def Extent.isBefore (first second : Extent) : Bool :=
  let key (extent : Extent) :=
    [extent.start.line, extent.start.column, extent.stop.line, extent.stop.column]
  (compare (key first) (key second)).isLE

namespace Mistake

/-- The places that are pointed at, from the first to the last. -/
def extents (mistake : Mistake) : List Extent :=
  match mistake.other with
  | none => [mistake.extent]
  | some other =>
    if mistake.extent.isBefore other then [mistake.extent, other] else [other, mistake.extent]

/-- Marks under a line. A place without width has one mark, too. -/
def underline (extents : List Extent) : String :=
  extents.foldl (fun marks extent =>
    marks ++ String.ofList (List.replicate (extent.start.column - 1 - marks.length) ' ') ++
      String.ofList (List.replicate (max 1 (extent.stop.column - extent.start.column)) '^')) ""

/-- A line behind its margin, with the marks of the places in it. -/
def shownLine (mistake : Mistake) (margin : String) (number : Nat) (line : String) :
    List String :=
  let marked := mistake.extents.filter fun extent =>
    extent.start.line = number ∧ extent.stop.line = number
  let blank := String.ofList (List.replicate margin.length ' ')
  (margin ++ line) :: if marked.isEmpty then [] else [blank ++ underline marked]

/-- What is said of a place that spans several lines. -/
def spanText (extent : Extent) : String :=
  s!"on line {extent.start.line} (column {extent.start.column}) through " ++
    s!"line {extent.stop.line} (column {extent.stop.column - 1})"

/-- The expression with its faulty places marked, and what is wrong with them. The lines of an
expression are numbered if there are several. -/
def report (mistake : Mistake) (expression : String) : String :=
  let lines := linesOf expression
  let several := expression.toList.contains '\n'
  let count := lines.length + (if expression.toList.getLast? = some '\n' then 1 else 0)
  let width := (toString count).length
  let margin (number : Nat) :=
    if count ≤ 1 then "    "
    else String.ofList ((toString number).toList.leftpad width ' ') ++ ": "
  let shown := lines.zipIdx.flatMap fun (line, index) =>
    mistake.shownLine (margin (index + 1)) (index + 1) line
  let divider := String.ofList (List.replicate 79 '~')
  let spans := mistake.extents.filter fun extent => extent.start.line ≠ extent.stop.line
  let body :=
    if several then [divider] ++ shown ++ [divider] ++ spans.map spanText else shown
  "\n".intercalate (["regex parse error:"] ++ body ++ ["error: " ++ mistake.fault.message])

end Mistake

end DspIsa.Regex
