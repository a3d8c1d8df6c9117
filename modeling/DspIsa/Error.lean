import DspIsa.Diagnostic

/-! Why a spec cannot be used. Each error is a cause; `message` holds the wording. -/
namespace DspIsa

/-- Why a file could not be read or written. -/
inductive FileFault where
  | notFound
  | alreadyExists
  | notDirectory
  | isDirectory
  | nameTooLong
  | embeddedNul
  | notUtf8
  | other (text : String)
  deriving DecidableEq, Repr

def FileFault.message : FileFault → String
  | .notFound => "No such file or directory (os error 2)"
  | .alreadyExists => "File exists (os error 17)"
  | .notDirectory => "Not a directory (os error 20)"
  | .isDirectory => "Is a directory (os error 21)"
  | .nameTooLong => "File name too long (os error 36)"
  | .embeddedNul => "file name contained an unexpected NUL byte"
  | .notUtf8 => "stream did not contain valid UTF-8"
  | .other text => text

/-- An operand that lies in both words of a two-word instruction. -/
structure StraddlingOperand where
  opcode : String
  symbol : Char
  low : Nat
  high : Nat
  deriving DecidableEq, Repr

def StraddlingOperand.message (operand : StraddlingOperand) : String :=
  s!"operand '{operand.symbol}' of '{operand.opcode}' spans bits {operand.low}..={operand.high} " ++
    "across the 16-bit word boundary"

inductive SpecError where
  | file (fault : FileFault)
  | diagnostics (phase : Phase) (reports : List Diagnostic)
  | straddling (operand : StraddlingOperand)
  | rendering
  deriving DecidableEq, Repr

namespace SpecError

def reports : SpecError → List Diagnostic
  | .diagnostics _ reports => reports
  | _ => []

def message : SpecError → String
  | .file fault => "I/O error: " ++ fault.message
  | .diagnostics phase reports =>
    s!"{phase.name} produced {reports.length} issue(s):" ++
      String.join (reports.map fun report => "\n  - " ++ report.render)
  | .straddling operand => operand.message
  | .rendering => "failed to render generated source"

/-- The message followed by those of the causes below it. -/
def chain (error : SpecError) : List String :=
  match error with
  | .file fault => [error.message, fault.message]
  | .rendering => [error.message, "an error occurred when formatting an argument"]
  | _ => [error.message]

end SpecError

end DspIsa
