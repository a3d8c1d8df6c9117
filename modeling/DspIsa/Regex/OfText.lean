import DspIsa.Regex.Expression
import DspIsa.Regex.Meaning
import DspIsa.Regex.Size

/-! From the text of an expression to the regular expression that it writes. -/
namespace DspIsa.Regex

/-- Why an expression is of no use. -/
inductive Refusal where
  | mistake (mistake : Mistake)
  | tooLarge
  | edgesUnknown
  deriving DecidableEq, Repr

def Refusal.message (expression : String) : Refusal → String
  | .mistake found => found.report expression
  | .tooLarge => s!"Compiled regex exceeds size limit of {sizeLimit} bytes."
  | .edgesUnknown => "error building NFA"

/-- Reads an expression. Its search machines have to fit in their limit, and no place is known to be
the edge of a word in any script. -/
def ofText (expression : String) : Except Refusal Regex := do
  let term ← (Term.ofText expression).mapError .mistake
  let (regex, _) ← (term.meaning .standard).mapError .mistake
  if regex.isTooLarge .forwards then throw .tooLarge
  if regex.hasScriptEdge then throw .edgesUnknown
  if regex.isTooLarge .backwards then throw .tooLarge
  return regex

end DspIsa.Regex
