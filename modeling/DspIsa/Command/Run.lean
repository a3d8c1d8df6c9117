import DspIsa.Command.Arguments
import DspIsa.Command.ErrorStream
import DspIsa.Generation
import DspIsa.LogFilter

/-! The two commands as functions from their arguments, their environment and the files to what
they print. -/
namespace DspIsa.Command

/-- How a run ends. The notices are printed in front of the records. -/
structure Outcome where
  exitCode : Nat
  output : String
  notices : String
  records : List LogRecord
  complaint : String
  deriving DecidableEq, Repr

namespace Outcome

def errorLines (outcome : Outcome) : List ErrorLine :=
  Command.errorLines outcome.notices outcome.records outcome.complaint

/-- How a run ends whose arguments make no sense. -/
def misuse (usage : String) : Outcome := ⟨2, "", "", [], usage⟩

def success (output : String) (records : List LogRecord) : Outcome := ⟨0, output, "", records, ""⟩

def failure (complaint : String) (records : List LogRecord) : Outcome :=
  ⟨1, "", "", records, complaint⟩

/-- Keeps the records that the filter in the variable `RUST_LOG` shows, and adds what is printed
about the filter. Without a filter records are shown down to the level of information. -/
def filtered (environment : List (String × String)) (outcome : Outcome) : Outcome :=
  let (filter, faults) := LogFilter.ofText ((environment.lookup "RUST_LOG").getD "info")
  { outcome with
    notices := String.join (faults.map (·.notice))
    records := outcome.records.filter filter.shows }

end Outcome

/-- A text under an opening for its first line and an indent for every other line. -/
def indented (first others text : String) : String :=
  match text.splitOn "\n" with
  | [] => first
  | line :: lines => "\n".intercalate ((first ++ line) :: lines.map (others ++ ·))

/-- The causes of a failure. Several are numbered from zero. -/
def causeLines : List String → List String
  | [cause] => [indented "    " "    " cause]
  | causes => causes.zipIdx.map fun (cause, number) =>
      indented (String.ofList ((toString number).toList.leftpad 5 ' ') ++ ": ") "       " cause

/-- What is printed about a failure, with what was tried in front of its causes. -/
def complaint (attempt : String) (causes : List String) : String :=
  "Error: " ++ attempt ++ "\n\nCaused by:\n" ++ "\n".intercalate (causeLines causes) ++ "\n"

/-- The warnings that follow a successful run of the generator. -/
def warnings (summary : Summary) : List LogRecord :=
  let conflicts := s!"{summary.extensionConflicts} extension byte(s) matched more than one " ++
    "extension; the first in spec order was kept"
  let ambiguous := s!"{summary.ambiguousNodes} decision-table node(s) could not be split and " ++
    "decode as unknown"
  (if 0 < summary.extensionConflicts then [⟨.warn, .generateCommand, conflicts⟩] else []) ++
    (if 0 < summary.ambiguousNodes then [⟨.warn, .generateCommand, ambiguous⟩] else [])

def generateUsage : String :=
  "Usage: dsp-codegen [--spec <SPEC>] [--log-target <LOG_TARGET>] <OUTPUT>\n"

def disassembleUsage : String :=
  "Usage: dsp-disasm [--spec <SPEC>] [--endianness <ENDIANNESS>] [--base <BASE>] <IMAGE>\n"

section
variable {m : Type → Type} [Monad m] [MonadFiles m]

/-- Generates a decoder. -/
def generateOutcome (arguments : GenerateArguments) : m Outcome := do
  let { spec, output, logTarget } := arguments
  let made ← generate spec output ⟨logTarget, spec, none⟩
  match made.value with
  | .error error =>
    let attempt := s!"failed to generate {output} from {spec}"
    return .failure (complaint attempt error.chain) made.records
  | .ok summary => return .success "" (made.records ++ warnings summary)

/-- The line that closes a disassembly. -/
def closingRecord (listing : Listing) (image : ByteArray) : LogRecord :=
  ⟨.info, .disassembleCommand, s!"{listing.lines.length} instruction(s), {listing.unknownCount} unknown, " ++
    s!"{image.size} byte(s) read"⟩

/-- Disassembles an image. -/
def disassembleOutcome (arguments : DisassembleArguments) : m Outcome := do
  let { spec, order, base, image := path } := arguments
  let loaded ← loadSpec spec
  match loaded.value with
  | .error error =>
    return .failure (complaint s!"failed to load spec {spec}" error.chain) loaded.records
  | .ok doc =>
    match ← readFile path with
    | .error fault =>
      return .failure (complaint s!"failed to read image {path}" [fault.message]) loaded.records
    | .ok image =>
      let listed := doc.disassemble order base image.data.toList
      let records := loaded.records ++ listed.records
      match listed.value with
      | .error error => return .failure ("Error: " ++ error.message ++ "\n") records
      | .ok listing =>
        let output := String.join (listing.lines.map fun line => line.render ++ "\n")
        return .success output (records ++ [closingRecord listing image])

/-- Runs the command of a name. -/
def run (command : String) (arguments : List String) (environment : List (String × String)) :
    m Outcome :=
  match command with
  | "dsp-codegen" =>
    match GenerateArguments.parse? arguments environment with
    | none => return .misuse generateUsage
    | some parsed => Outcome.filtered environment <$> generateOutcome parsed
  | "dsp-disasm" =>
    match DisassembleArguments.parse? arguments environment with
    | none => return .misuse disassembleUsage
    | some parsed => Outcome.filtered environment <$> disassembleOutcome parsed
  | _ => return .misuse (generateUsage ++ disassembleUsage)

end

end DspIsa.Command
