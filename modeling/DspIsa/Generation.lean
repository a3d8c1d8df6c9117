import DspIsa.Generated.Assembly
import DspIsa.Generated.Render
import DspIsa.Loading

/-! Generating a decoder file from a spec file. The output is written last and in one piece. -/
namespace DspIsa

namespace Document

/-- Makes a blueprint for the document and logs what it found. -/
def blueprint (doc : Document) : Logged (Except SpecError Generated.Blueprint) :=
  match Generated.Blueprint.ofDocument doc with
  | .error operand => pure (.error (.straddling operand))
  | .ok blueprint => ⟨.ok blueprint, blueprint.records⟩

/-- The text of the generated decoder. -/
def emit (doc : Document) (options : Generated.Options) : Logged (Except SpecError String) := do
  match ← doc.blueprint with
  | .error error => return .error error
  | .ok blueprint => return .ok (blueprint.program options).text

end Document

/-- What a run of the generator made. -/
structure Summary where
  instructions : Nat
  extensions : Nat
  tables : Nat
  extensionConflicts : Nat
  ambiguousNodes : Nat
  bytesWritten : Nat
  deriving DecidableEq, Repr

namespace Summary

def ofBlueprint (blueprint : Generated.Blueprint) (text : String) : Summary where
  instructions := blueprint.document.instructions.length
  extensions := blueprint.document.extensions.length
  tables := blueprint.functionCount
  extensionConflicts := blueprint.table.conflicts.length
  ambiguousNodes := blueprint.tree.diagnostics.length
  bytesWritten := text.utf8ByteSize

def record (summary : Summary) (output : String) : LogRecord :=
  ⟨.info, .generation, s!"wrote {output} ({summary.bytesWritten} bytes): " ++
    s!"{summary.instructions} instruction(s), {summary.extensions} extension(s), " ++
    s!"{summary.tables} table function(s)"⟩

end Summary

/-- Writes the decoder of the spec at one path to another path. -/
def generate {m : Type → Type} [Monad m] [MonadFiles m] (spec output : String)
    (options : Generated.Options) : m (Logged (Except SpecError Summary)) := do
  let loaded ← loadSpec spec
  match loaded.value with
  | .error error => return ⟨.error error, loaded.records⟩
  | .ok doc =>
    let planned := doc.blueprint
    let records := loaded.records ++ planned.records
    match planned.value with
    | .error error => return ⟨.error error, records⟩
    | .ok blueprint =>
      let text := (blueprint.program options).text
      match ← writeFile output text.toUTF8 with
      | .error fault => return ⟨.error (.file fault), records⟩
      | .ok () =>
        let summary := Summary.ofBlueprint blueprint text
        return ⟨.ok summary, records ++ [summary.record output]⟩

end DspIsa
