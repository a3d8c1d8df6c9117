import DspIsa.Loading
import DspIsa.Proofs.Overlaps

/-! Checks and loads in a row. Whether it accepts a spec or not, neither a validator nor a loader
keeps anything of it, so what comes of a call does not depend on the calls before it. -/
namespace DspIsa

namespace Validator

variable {validator : Validator}

/-- What comes of checking documents one after the other. -/
def validateAll (validator : Validator) : List Document → List (Except SpecError Unit)
  | [] => []
  | doc :: rest => (validator.validate doc).1 :: (validator.validate doc).2.validateAll rest

/-- A validator that has checked documents is as good as a fresh one. -/
theorem Used.eq_new (used : validator.Used) : validator = .new := by
  cases validator with
  | mk pending => exact congrArg Validator.mk used.pending_eq_nil

theorem Used.validateAll_eq (used : validator.Used) (docs : List Document) :
    validator.validateAll docs = docs.map fun doc => (Validator.new.validate doc).1 := by
  induction docs generalizing validator with
  | nil => rfl
  | cons doc rest ih => rw [validateAll, List.map_cons, ih (used.after doc), used.eq_new]

end Validator

namespace Loader

variable {loader : Loader}

/-- What comes of loading a text, without the loader that is left. -/
def loaded (loader : Loader) (path source : String) : Logged (Except SpecError Document) :=
  ⟨(loader.loadText path source).value.1, (loader.loadText path source).records⟩

/-- What comes of loading texts, each with its path, one after the other. -/
def loadTexts (loader : Loader) : List (String × String) → List (Logged (Except SpecError Document))
  | [] => []
  | (path, source) :: rest =>
    loader.loaded path source :: (loader.loadText path source).value.2.loadTexts rest

/-- A loader that was made and has then been given any number of texts. -/
inductive Used : Loader → Prop where
  | new : Used .new
  | after {loader : Loader} (used : Used loader) (path source : String) :
    Used (loader.loadText path source).value.2

/-- A text that is not read never gets to the validator, and any other is checked by it. -/
theorem Used.validator (used : loader.Used) : loader.validator.Used := by
  induction used with
  | new => exact .new
  | after used path source ih =>
    unfold loadText
    split
    · exact ih
    · rename_i doc read
      exact ih.after doc

theorem Used.eq_new (used : loader.Used) : loader = .new := by
  cases loader with
  | mk validator => exact congrArg Loader.mk used.validator.eq_new

theorem Used.loadTexts_eq (used : loader.Used) (texts : List (String × String)) :
    loader.loadTexts texts = texts.map fun text => Loader.new.loaded text.1 text.2 := by
  induction texts generalizing loader with
  | nil => rfl
  | cons text rest ih =>
    obtain ⟨path, source⟩ := text
    rw [loadTexts, List.map_cons, ih (used.after path source), used.eq_new]

/-- However texts that are accepted, that are not read and that are not valid follow each other, a
loader makes of each what a fresh loader makes of it. A validator does the same for documents. -/
theorem loadTexts_eq_map (texts : List (String × String)) (docs : List Document) :
    Loader.new.loadTexts texts = texts.map (fun text => Loader.new.loaded text.1 text.2) ∧
      Validator.new.validateAll docs = docs.map fun doc => (Validator.new.validate doc).1 :=
  ⟨Used.loadTexts_eq .new texts, Validator.Used.validateAll_eq .new docs⟩

end Loader

end DspIsa
