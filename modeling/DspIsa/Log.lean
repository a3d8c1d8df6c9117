import DspIsa.Text.Terminal

/-! What the library reports while it works, kept as data beside its results. -/
namespace DspIsa

inductive LogLevel where
  | error
  | warn
  | info
  | debug
  | trace
  deriving DecidableEq, Repr

namespace LogLevel

def name : LogLevel → String
  | .error => "ERROR"
  | .warn => "WARN"
  | .info => "INFO"
  | .debug => "DEBUG"
  | .trace => "TRACE"

/-- How much detail a level stands for. -/
def detail : LogLevel → Nat
  | .error => 1
  | .warn => 2
  | .info => 3
  | .debug => 4
  | .trace => 5

end LogLevel

/-- The part of the program that a record comes from. -/
inductive LogTarget where
  | loader
  | decisionTree
  | extensionTable
  | decoder
  | generation
  | generateCommand
  | disassembleCommand
  deriving DecidableEq, Repr

/-- The name of a part, which begins with the name of the part around it. -/
def LogTarget.name : LogTarget → String
  | .loader => "dsp_codegen::loader::spec::loader"
  | .decisionTree => "dsp_codegen::soc::isa::table"
  | .extensionTable => "dsp_codegen::soc::isa::extension"
  | .decoder => "dsp_codegen::soc::isa::decoder"
  | .generation => "dsp_codegen::codegen"
  | .generateCommand => "dsp_codegen"
  | .disassembleCommand => "dsp_disasm"

structure LogRecord where
  level : LogLevel
  target : LogTarget
  message : String
  deriving DecidableEq, Repr

namespace LogRecord

/-- The text of a record behind its level. Every further line of the message is set off from the
records around it, and a line break ends the record. -/
def printed (record : LogRecord) : String :=
  Text.withoutSequences ("\n    ".intercalate (record.message.splitOn "\n") ++ "\n")

end LogRecord

/-- A result with the records written on the way to it, in order. -/
structure Logged (α : Type) where
  value : α
  records : List LogRecord

namespace Logged

def write (record : LogRecord) : Logged Unit := ⟨(), [record]⟩

instance : Monad Logged where
  pure value := ⟨value, []⟩
  bind first next :=
    let second := next first.value
    ⟨second.value, first.records ++ second.records⟩

end Logged

end DspIsa
