import DspIsa.Source

/-! Reports about a spec, as a reader of the spec sees them. -/
namespace DspIsa

inductive Phase where
  | lexer
  | parser
  | validation
  | table
  deriving DecidableEq, Repr

def Phase.name : Phase → String
  | .lexer => "Lexer"
  | .parser => "Parser"
  | .validation => "Validation"
  | .table => "Table"

inductive Severity where
  | error
  | warning
  deriving DecidableEq, Repr

def Severity.name : Severity → String
  | .error => "Error"
  | .warning => "Warning"

structure Diagnostic where
  phase : Phase
  severity : Severity
  code : String
  message : String
  span : Option Span
  deriving DecidableEq, Repr

namespace Diagnostic

def isError (report : Diagnostic) : Bool := report.severity == .error

def place (report : Diagnostic) : String :=
  match report.span with
  | some span => span.render
  | none => "<unknown>"

def render (report : Diagnostic) : String :=
  s!"{report.severity.name} {report.code}: {report.message} @ {report.place}"

end Diagnostic

end DspIsa
