import DspIsa.Instruction

/-! Names in the generated text. A type name that is taken gets the first free number behind it;
the names handed out are pairwise different. -/
namespace DspIsa.Generated

/-- An opcode name as an upper-case identifier; what an identifier cannot hold becomes `_`. -/
def typeIdent (name : String) : String :=
  let chars := name.toList.map fun c => if c.isAlphanum then c.toUpper else '_'
  match chars with
  | [] => "OP_"
  | first :: _ => if first.isDigit then "OP_" ++ String.ofList chars else String.ofList chars

/-- The name of the `number`-th nested dispatch function. -/
def tableName (number : Nat) : String := s!"generated_table_{number}"

/-- The type names handed out, each with the number to try first when it is asked for again. -/
structure TypeNames where
  taken : List (String × Nat)
  deriving DecidableEq, Repr

namespace TypeNames

def empty : TypeNames := ⟨[]⟩

def next? (names : TypeNames) (ident : String) : Option Nat := names.taken.lookup ident

def isTaken (names : TypeNames) (ident : String) : Bool := (names.next? ident).isSome

/-- Sets the number of a name, which takes the name if it was free. -/
def set (names : TypeNames) (ident : String) (next : Nat) : TypeNames :=
  ⟨(ident, next) :: names.taken.filter fun entry => entry.1 != ident⟩

/-- The first number from `start` on that makes a free name. One of the first `taken.length + 1`
numbers does, since no two of them make the same name. -/
def firstFree (names : TypeNames) (base : String) (start : Nat) : Nat :=
  ((List.range (names.taken.length + 1)).map (start + ·)).find?
    (fun number => !names.isTaken (numbered base number)) |>.getD start

/-- Hands out `base`, or `base` with the first free number. -/
def claim (names : TypeNames) (base : String) : String × TypeNames :=
  match names.next? base with
  | none => (base, names.set base 1)
  | some start =>
    let number := names.firstFree base start
    let ident := numbered base number
    (ident, (names.set base (number + 1)).set ident 1)

def claimMain (names : TypeNames) (opcode : String) : String × TypeNames :=
  names.claim (typeIdent opcode)

def claimExtension (names : TypeNames) (opcode : String) : String × TypeNames :=
  names.claim ("EXT_" ++ typeIdent opcode)

end TypeNames

end DspIsa.Generated
