import DspIsa.Command.Run

/-! The command line. The first argument names the command, and the rest are its own. -/
namespace DspIsa

def FileFault.ofIOError (error : IO.Error) : FileFault :=
  match error with
  | .noFileOrDirectory .. => .notFound
  | .inappropriateType _ 20 _ => .notDirectory
  | .inappropriateType _ 21 _ => .isDirectory
  | _ => .other (toString error)

instance : MonadFiles IO where
  readFile path := do
    try return .ok (← IO.FS.readBinFile path)
    catch error => return .error (.ofIOError error)
  writeFile path bytes := do
    try
      IO.FS.writeBinFile path bytes
      return .ok ()
    catch error => return .error (.ofIOError error)

/-- The variables that the commands look at, as far as they are set. -/
def environment : IO (List (String × String)) := do
  let mut found := []
  for name in ["DSP_CODEGEN_SPEC", "RUST_LOG"] do
    if let some value ← IO.getEnv name then found := (name, value) :: found
  return found

end DspIsa

def main (arguments : List String) : IO UInt32 := do
  let environment ← DspIsa.environment
  let outcome ← DspIsa.Command.run (m := IO) (arguments.headD "") (arguments.drop 1) environment
  IO.eprint outcome.notices
  for record in outcome.records do
    IO.eprint s!"[{record.level.name} {record.target.name}] {record.printed}"
  IO.print outcome.output
  IO.eprint outcome.complaint
  return UInt32.ofNat outcome.exitCode
