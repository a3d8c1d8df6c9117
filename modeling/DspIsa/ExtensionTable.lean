import DspIsa.Instruction
import DspIsa.Log

/-! Extensions by their byte. The first extension in spec order that matches a byte owns it, and
every later match is kept as a conflict. -/
namespace DspIsa

structure ExtensionConflict where
  byte : Nat
  kept : Nat
  rejected : Nat
  deriving DecidableEq, Repr

structure ExtensionTable where
  extensions : List Instruction
  owners : Array (Option Nat)
  conflicts : List ExtensionConflict
  deriving DecidableEq, Repr

namespace ExtensionTable

def isByteMatch (byte : Nat) (extension : Instruction) : Bool :=
  BitVec.ofNat 32 byte &&& extension.fixedMask == extension.fixedValue

/-- The indices of the extensions that match a byte, in spec order. -/
def matching (extensions : List Instruction) (byte : Nat) : List Nat :=
  (extensions.zipIdx.filter fun entry => isByteMatch byte entry.1).map Prod.snd

def conflictsAt (extensions : List Instruction) (byte : Nat) : List ExtensionConflict :=
  match matching extensions byte with
  | [] => []
  | kept :: later => later.map fun rejected => ⟨byte, kept, rejected⟩

def build (extensions : List Instruction) : ExtensionTable where
  extensions
  owners := (Array.range 256).map fun byte => (matching extensions byte).head?
  conflicts := (List.range 256).flatMap (conflictsAt extensions)

def owner? (table : ExtensionTable) (byte : Nat) : Option Nat := (table.owners[byte]?).join

def lookup (table : ExtensionTable) (byte : Nat) : Option Instruction :=
  (table.owner? byte).bind fun index => table.extensions[index]?

def isComplete (table : ExtensionTable) : Bool := table.owners.all Option.isSome

/-- The bytes that have an owner, ascending, with their owners. -/
def covered (table : ExtensionTable) : List (Nat × Nat) :=
  (List.range 256).filterMap fun byte => (table.owner? byte).map fun index => (byte, index)

def nameAt (table : ExtensionTable) (index : Nat) : String :=
  (table.extensions[index]?.map (·.name)).getD ""

def conflictText (table : ExtensionTable) (conflict : ExtensionConflict) : String :=
  let kept := table.nameAt conflict.kept
  let rejected := table.nameAt conflict.rejected
  let byte := Text.markedHex 2 conflict.byte
  s!"extension byte {byte} matches both '{kept}' and '{rejected}'; keeping '{kept}'"

/-- What is logged when the table is built. -/
def records (table : ExtensionTable) : List LogRecord :=
  table.conflicts.map fun conflict => ⟨.warn, .extensionTable, table.conflictText conflict⟩

end ExtensionTable

end DspIsa
