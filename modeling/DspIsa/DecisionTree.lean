import DspIsa.Diagnostic
import DspIsa.Instruction
import DspIsa.Log

/-! Dispatch on the first instruction word. A table picks a slot by the bits that all of its
candidates fix and no table above it has used; the second word plays no part, since only the
opcode tells that there is one. -/
namespace DspIsa

/-- An instruction as a table sees it: its index and the bits it fixes in the first word. -/
structure Candidate where
  index : Nat
  mask : Word
  value : Word
  deriving DecidableEq, Repr

/-- What is left to decide: nothing to choose from, one instruction, instructions that cannot be
told apart, or a table with one node for every pattern of the bits in its mask. -/
inductive DecisionNode where
  | empty
  | leaf (index : Nat)
  | ambiguous (indices : List Nat)
  | table (mask : Word) (slots : Array DecisionNode)
  deriving Repr

namespace Candidate

def ofInstructions (instructions : List Instruction) : List Candidate :=
  instructions.zipIdx.map fun (instr, index) => ⟨index, instr.firstWordMask, instr.firstWordValue⟩

/-- The bits of `free` that every candidate fixes. -/
def sharedMask (free : Word) (candidates : List Candidate) : Word :=
  candidates.foldl (fun mask candidate => mask &&& candidate.mask) free

theorem getLsbD_sharedMask (free : Word) (candidates : List Candidate) (bit : Nat) :
    (sharedMask free candidates).getLsbD bit =
      (free.getLsbD bit && candidates.all fun candidate => candidate.mask.getLsbD bit) := by
  induction candidates generalizing free with
  | nil => simp [sharedMask]
  | cons candidate rest ih =>
    have step := ih (free &&& candidate.mask)
    simp only [sharedMask, List.foldl_cons] at step ⊢
    simp [step, Bool.and_assoc]

/-- The free bits that are left once a table has used those of `mask`. -/
def unused (free mask : Word) : Word := free &&& ~~~mask

/-- Using up a shared mask that is not empty leaves fewer free bits. -/
theorem toNat_unused_lt {free : Word} {candidates : List Candidate}
    (shared : sharedMask free candidates ≠ 0#16) :
    (unused free (sharedMask free candidates)).toNat < free.toNat := by
  have bounded : (unused free (sharedMask free candidates)).toNat ≤ free.toNat := by
    rw [unused, BitVec.toNat_and]
    exact Nat.and_le_left
  refine Nat.lt_of_le_of_ne bounded fun same => shared ?_
  have nothingUsed := BitVec.eq_of_toNat_eq same
  apply BitVec.eq_of_getLsbD_eq
  intro bit inside
  have kept := congrArg (fun word => word.getLsbD bit) nothingUsed
  have inFree := getLsbD_sharedMask free candidates bit
  simp only [unused, BitVec.getLsbD_and, BitVec.getLsbD_not, inside, decide_true,
    Bool.true_and] at kept
  cases found : (sharedMask free candidates).getLsbD bit with
  | false => simp
  | true =>
    rw [found] at inFree kept
    simp only [Bool.not_true, Bool.and_false] at kept
    simp [← kept] at inFree

/-- The candidates whose key is `slot`. -/
def atSlot (keyed : List (Nat × Candidate)) (slot : Nat) : List Candidate :=
  (keyed.filter fun entry => entry.1 == slot).map Prod.snd

end Candidate

namespace DecisionNode

/-- Splits the candidates by the bits of `free` they share until each is alone. Candidates that
share none cannot be told apart, and no word leads to any of them. -/
def build (free : Word) : List Candidate → DecisionNode
  | [] => .empty
  | [only] => .leaf only.index
  | first :: second :: rest =>
    let candidates := first :: second :: rest
    let mask := Candidate.sharedMask free candidates
    if shared : mask = 0#16 then .ambiguous (candidates.map (·.index))
    else
      have := Candidate.toNat_unused_lt shared
      let keyed := candidates.map fun candidate => (Bits.gather candidate.value mask, candidate)
      .table mask ((Array.range (1 <<< (Bits.setBits mask).length)).map fun slot =>
        build (Candidate.unused free mask) (Candidate.atSlot keyed slot))
termination_by free.toNat

/-- The index of the one instruction that the first word may be. -/
def lookup (word : Word) : DecisionNode → Option Nat
  | .empty => none
  | .leaf index => some index
  | .ambiguous _ => none
  | .table mask slots =>
    match found : slots[Bits.gather word mask]? with
    | none => none
    | some node =>
      have := Array.sizeOf_lt_of_mem (Array.mem_of_getElem? found)
      node.lookup word
termination_by node => sizeOf node

@[simp] theorem lookup_table (word mask : Word) (slots : Array DecisionNode) :
    (table mask slots).lookup word =
      (slots[Bits.gather word mask]?).bind fun node => node.lookup word := by
  rw [lookup]
  dsimp only
  split
  · rename_i missing
    simp only [missing, Option.bind_none]
  · rename_i found
    simp only [found, Option.bind_some]

def tableCount : DecisionNode → Nat
  | .table _ slots => 1 + (slots.map tableCount).toList.foldl (· + ·) 0
  | _ => 0

/-- The number of tables on the longest way down. -/
def depth : DecisionNode → Nat
  | .table _ slots => 1 + (slots.map depth).toList.max?.getD 0
  | _ => 0

/-- The groups that could not be split, in slot order. -/
def ambiguities : DecisionNode → List (List Nat)
  | .ambiguous indices => [indices]
  | .table _ slots => (slots.map ambiguities).toList.flatten
  | _ => []

/-- Whether a table has something to do for the slot that holds this node. -/
def isOccupied : DecisionNode → Bool
  | .leaf _ => true
  | .table .. => true
  | _ => false

/-- The slots of a table that lead somewhere, with their numbers. -/
def occupied (slots : Array DecisionNode) : List (DecisionNode × Nat) :=
  slots.toList.zipIdx.filter fun entry => entry.1.isOccupied

end DecisionNode

structure DecisionTree where
  instructions : List Instruction
  root : DecisionNode
  deriving Repr

namespace DecisionTree

/-- The tree over all instructions, with every bit of the first word still free. -/
def build (instructions : List Instruction) : DecisionTree :=
  ⟨instructions, .build (BitVec.allOnes 16) (Candidate.ofInstructions instructions)⟩

def lookup (tree : DecisionTree) (word : Word) : Option Nat := tree.root.lookup word

def tableCount (tree : DecisionTree) : Nat := tree.root.tableCount

def depth (tree : DecisionTree) : Nat := tree.root.depth

/-- The warning about a group that could not be split, placed at its first member. -/
def report (tree : DecisionTree) (indices : List Nat) : Diagnostic :=
  let members := indices.filterMap fun index => tree.instructions[index]?
  { phase := .table
    severity := .warning
    code := "table.indistinguishable"
    message := "instructions " ++ ", ".intercalate (members.map (·.name)) ++
      " share every remaining first-word fixed bit; their slot decodes as unknown"
    span := members.head?.map (·.span) }

def diagnostics (tree : DecisionTree) : List Diagnostic :=
  tree.root.ambiguities.map tree.report

def summary (tree : DecisionTree) : String :=
  s!"decision tree: {tree.instructions.length} instruction(s), {tree.tableCount} table(s), " ++
    s!"depth {tree.depth}"

/-- What is logged when the tree is built. -/
def records (tree : DecisionTree) : List LogRecord :=
  tree.diagnostics.map (fun report => ⟨.warn, .decisionTree, report.message⟩) ++
    [⟨.debug, .decisionTree, tree.summary⟩]

end DecisionTree

end DspIsa
