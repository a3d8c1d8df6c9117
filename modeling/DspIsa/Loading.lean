import DspIsa.Files
import DspIsa.Listing
import DspIsa.Spec.Reader
import DspIsa.Validation

/-! Loading a spec: read, parse, validate. The loader keeps its validator between specs. -/
namespace DspIsa

structure Loader where
  validator : Validator
  deriving DecidableEq, Repr

namespace Loader

def new : Loader := ⟨.new⟩

def loadText (loader : Loader) (path source : String) :
    Logged (Except SpecError Document × Loader) :=
  match Spec.parse path source with
  | .error error => pure (.error error, loader)
  | .ok doc => do
    let counts := s!"{doc.instructions.length} instruction(s), {doc.extensions.length} extension(s)"
    Logged.write ⟨.debug, .loader, s!"parsed {path}: {counts}"⟩
    let (checked, validator) := loader.validator.validate doc
    return (checked.map fun _ => doc, ⟨validator⟩)

def load {m : Type → Type} [Monad m] [MonadFiles m] (loader : Loader) (path : String) :
    m (Logged (Except SpecError Document × Loader)) := do
  match ← readText path with
  | .error fault => return pure (.error (.file fault), loader)
  | .ok source => return loader.loadText path source

end Loader

/-- Loads one spec file with a loader of its own. -/
def loadSpec {m : Type → Type} [Monad m] [MonadFiles m] (path : String) :
    m (Logged (Except SpecError Document)) := do
  let loaded ← Loader.new.load path
  return ⟨loaded.value.1, loaded.records⟩

namespace Document

/-- Makes a decoder for the document and logs what it found. -/
def decoder (doc : Document) : Logged (Except SpecError Decoder) :=
  match Decoder.ofDocument doc with
  | .error operand => pure (.error (.straddling operand))
  | .ok decoder => ⟨.ok decoder, decoder.records⟩

/-- Disassembles an image with a decoder made for it. -/
def disassemble (doc : Document) (order : ByteOrder) (base : Address) (image : List UInt8) :
    Logged (Except SpecError Listing) := do
  match ← doc.decoder with
  | .error error => return .error error
  | .ok decoder =>
    let listing := decoder.disassemble order base image
    ⟨.ok listing, listing.records⟩

end Document

end DspIsa
