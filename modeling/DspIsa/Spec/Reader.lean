import DspIsa.Digest.Sha256
import DspIsa.Document
import DspIsa.Error
import DspIsa.Spec.Line

/-! Reading a spec text. A reader keeps its place and the reports it has not yet handed out, so
that reading can go on behind a refused character. -/
namespace DspIsa.Spec

def refusal (path : String) (found : ControlCharacter) : Diagnostic where
  phase := .lexer
  severity := .error
  code := "lexer.control-char"
  message := "unexpected control character U+" ++ Text.upperHex 4 found.char.toNat
  span := some (.point path found.position)

def refusalError (path : String) (found : ControlCharacter) : SpecError :=
  .diagnostics .lexer [refusal path found]

/-- The token lines of a pass; a line that a refused character cut off is not among them. -/
def lines (reading : Reading) : List (List Token) :=
  let tokens := reading.tokens.filter fun token => token.kind != .eof
  let lines := tokens.splitOnP fun token => token.kind == .newline
  if reading.refused.isSome then lines.dropLast else lines

structure Reader where
  path : String
  source : String
  cursor : Cursor
  pending : List Diagnostic
  deriving DecidableEq, Repr

namespace Reader

def ofText (path source : String) : Reader := ⟨path, source, .ofText source, []⟩

/-- Reads on to the end of the text or to a refused character. Reports are kept until a pass
gets to the end, and only a pass without any gives a document. -/
def document (reader : Reader) : Except SpecError Document × Reader :=
  let reading := reader.cursor.read
  let read := (lines reading).filterMap (readLine reader.path)
  let faults := read.filterMap fun
    | .error line => some (line.report reader.path)
    | .ok _ => none
  let records := read.filterMap Except.toOption
  let pending := reader.pending ++ faults
  match reading.refused with
  | some found =>
    (.error (refusalError reader.path found), { reader with cursor := reading.cursor, pending })
  | none =>
    let ended := { reader with cursor := reading.cursor, pending := [] }
    if pending.isEmpty then
      (.ok {
        path := reader.path
        digest := Digest.sha256 reader.source
        instructions := records.filter fun instr => !instr.isExtension
        extensions := records.filter fun instr => instr.isExtension }, ended)
    else (.error (.diagnostics .parser pending), ended)

end Reader

/-- Reads a whole spec text. -/
def parse (path source : String) : Except SpecError Document :=
  (Reader.ofText path source).document.1

end DspIsa.Spec
