import DspIsa.ByteOrder
import DspIsa.Generated.Assembly
import DspIsa.Listing
import DspIsa.Text.Hex

/-! The arguments of the two commands: one path, and options that are given at most once. -/
namespace DspIsa.Command

structure Arguments where
  positional : List String
  options : List (String × String)
  deriving DecidableEq, Repr

namespace Arguments

def empty : Arguments := ⟨[], []⟩

def addPositional (arguments : Arguments) (value : String) : Arguments :=
  { arguments with positional := arguments.positional ++ [value] }

/-- Adds an option that is known and has not been given before. -/
def addOption (known : List String) (arguments : Arguments) (name value : String) :
    Option Arguments :=
  if known.contains name && (arguments.options.lookup name).isNone then
    some { arguments with options := (name, value) :: arguments.options }
  else none

/-- Whether an argument is an option or its mark; a lone dash is an ordinary value. -/
def isFlag (argument : String) : Bool := argument.startsWith "-" && argument != "-"

/-- The name and the value of `--name=value`, as one argument. -/
def splitOption (argument : String) : String × Option String :=
  let chars := argument.toList.drop 2
  let name := String.ofList (chars.takeWhile (· != '='))
  match chars.dropWhile (· != '=') with
  | [] => (name, none)
  | _ :: value => (name, some (String.ofList value))

/-- Reads arguments behind those read so far. Behind `--` all are positional. -/
def read (known : List String) (arguments : Arguments) : List String → Option Arguments
  | [] => some arguments
  | argument :: rest =>
    if argument = "--" then some (rest.foldl addPositional arguments)
    else if argument.startsWith "--" then
      match splitOption argument with
      | (name, some value) => do read known (← addOption known arguments name value) rest
      | (name, none) =>
        match rest with
        | [] => none
        | value :: rest =>
          if isFlag value then none
          else do read known (← addOption known arguments name value) rest
    else if isFlag argument then none
    else read known (arguments.addPositional argument) rest

/-- A path may not be empty. -/
def path? (value : String) : Option String := if value = "" then none else some value

/-- The one positional argument, which is a path. -/
def onlyPath? (arguments : Arguments) : Option String :=
  match arguments.positional with
  | [value] => path? value
  | _ => none

/-- The spec: an option, else a variable of the environment, else the standard place. -/
def spec? (arguments : Arguments) (environment : List (String × String)) : Option String :=
  match (arguments.options.lookup "spec").or (environment.lookup "DSP_CODEGEN_SPEC") with
  | some value => path? value
  | none => some Generated.Options.standard.sourceLabel

end Arguments

/-- Reads an address in hexadecimal, with or without a `0x` mark and then a plus sign. -/
def parseBase? (text : String) : Option Address :=
  let chars := text.toList
  let isMarked := chars.take 2 = ['0', 'x'] ∨ chars.take 2 = ['0', 'X']
  let digits := if isMarked then chars.drop 2 else chars
  let digits := if digits.head? = some '+' then digits.drop 1 else digits
  match Text.parseHex? digits with
  | some value => if value < UInt64.size then some (BitVec.ofNat 64 value) else none
  | none => none

structure GenerateArguments where
  output : String
  spec : String
  logTarget : String
  deriving DecidableEq, Repr

def GenerateArguments.parse? (arguments : List String) (environment : List (String × String)) :
    Option GenerateArguments := do
  let read ← Arguments.read ["spec", "log-target"] .empty arguments
  return {
    output := ← read.onlyPath?
    spec := ← read.spec? environment
    logTarget := (read.options.lookup "log-target").getD Generated.Options.standard.logTarget }

structure DisassembleArguments where
  image : String
  spec : String
  order : ByteOrder
  base : Address
  deriving DecidableEq, Repr

def DisassembleArguments.parse? (arguments : List String)
    (environment : List (String × String)) : Option DisassembleArguments := do
  let read ← Arguments.read ["spec", "endianness", "base"] .empty arguments
  return {
    image := ← read.onlyPath?
    spec := ← read.spec? environment
    order := ← (ByteOrder.parse ((read.options.lookup "endianness").getD "big")).toOption
    base := ← parseBase? ((read.options.lookup "base").getD "0") }

end DspIsa.Command
