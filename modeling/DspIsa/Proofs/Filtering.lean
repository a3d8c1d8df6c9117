import DspIsa.Proofs.Dispatch

/-! Deciding what a word is without any table: the instructions that are left are filtered by the
bits they all fix, round after round. The decision tree gives the same answer for every word. -/
namespace DspIsa

namespace Instruction

/-- The first-word bits outside of `used` that every chosen instruction fixes. -/
def commonMask (used : Word) (chosen : List (Instruction × Nat)) : Word :=
  chosen.foldl (fun mask entry => mask &&& entry.1.firstWordMask) (BitVec.allOnes 16) &&& ~~~used

/-- The chosen instructions whose values agree with the word on every bit of the mask. -/
def agreeing (word mask : Word) (chosen : List (Instruction × Nat)) : List (Instruction × Nat) :=
  chosen.filter fun entry => entry.1.firstWordValue &&& mask == word &&& mask

/-- An instruction with its number, as a table sees it. -/
def candidate (entry : Instruction × Nat) : Candidate :=
  ⟨entry.2, entry.1.firstWordMask, entry.1.firstWordValue⟩

/-- The common bits are those that a table over these instructions would look at. -/
theorem commonMask_eq (used : Word) (chosen : List (Instruction × Nat)) :
    commonMask used chosen = Candidate.sharedMask (~~~used) (chosen.map candidate) := by
  apply BitVec.eq_of_getLsbD_eq
  intro bit inside
  have fixed : chosen.foldl (fun mask entry => mask &&& entry.1.firstWordMask)
      (BitVec.allOnes 16) = Candidate.sharedMask (BitVec.allOnes 16) (chosen.map candidate) := by
    rw [Candidate.sharedMask, List.foldl_map]
    rfl
  rw [commonMask, fixed, BitVec.getLsbD_and, Candidate.getLsbD_sharedMask,
    Candidate.getLsbD_sharedMask, BitVec.getLsbD_allOnes, decide_eq_true inside, Bool.true_and,
    Bool.and_comm]

theorem unused_commonMask (used mask : Word) :
    Candidate.unused (~~~used) mask = ~~~(used ||| mask) := by
  rw [Candidate.unused, BitVec.not_or]

/-- What is left of the instructions for a word is what its slot of the table holds. -/
theorem map_candidate_agreeing (word mask : Word) (chosen : List (Instruction × Nat)) :
    (agreeing word mask chosen).map candidate =
      Candidate.inSlot mask (Bits.gather word mask) (chosen.map candidate) := by
  rw [agreeing, Candidate.inSlot, List.filter_map]
  refine congrArg (List.map candidate) (List.filter_congr fun entry _ => ?_)
  rw [Bool.eq_iff_iff, beq_iff_eq, Function.comp_apply, beq_iff_eq, Bits.gather_eq_iff]
  rfl

/-- A round that finds common bits leaves fewer bits for the next one. -/
theorem toNat_unused_commonMask_lt {used : Word} {chosen : List (Instruction × Nat)}
    (common : commonMask used chosen ≠ 0#16) :
    (~~~(used ||| commonMask used chosen)).toNat < (~~~used).toNat := by
  rw [commonMask_eq] at common ⊢
  rw [← unused_commonMask]
  exact Candidate.toNat_unused_lt common

/-- The answer for a word, given the instructions that are left and the bits already used. -/
def settle (word used : Word) : List (Instruction × Nat) → Option Nat
  | [] => none
  | [only] => some only.2
  | first :: second :: rest =>
    let chosen := first :: second :: rest
    let mask := commonMask used chosen
    if _ : mask = 0#16 then none
    else settle word (used ||| mask) (agreeing word mask chosen)
termination_by (~~~used).toNat
decreasing_by exact toNat_unused_commonMask_lt ‹_›

/-- A table goes on where a round of filtering goes on. -/
theorem lookup_build_eq_settle (word used : Word) (chosen : List (Instruction × Nat)) :
    (DecisionNode.build (~~~used) (chosen.map candidate)).lookup word =
      settle word used chosen := by
  fun_induction settle word used chosen with
  | case1 used =>
    rw [List.map_nil, DecisionNode.build_nil]
    exact DecisionNode.lookup_empty word
  | case2 used only =>
    rw [List.map_singleton, DecisionNode.build_singleton]
    exact DecisionNode.lookup_leaf word only.2
  | case3 used first second rest chosen mask common =>
    have several : 2 ≤ (chosen.map candidate).length := by simp [chosen]
    have apart : Candidate.sharedMask (~~~used) (chosen.map candidate) = 0#16 :=
      (commonMask_eq used chosen).symm.trans common
    rw [DecisionNode.build_of_not_shared several apart]
    exact DecisionNode.lookup_ambiguous word _
  | case4 used first second rest chosen mask common ih =>
    have several : 2 ≤ (chosen.map candidate).length := by simp [chosen]
    have same : Candidate.sharedMask (~~~used) (chosen.map candidate) = mask :=
      (commonMask_eq used chosen).symm
    have shared : Candidate.sharedMask (~~~used) (chosen.map candidate) ≠ 0#16 := same ▸ common
    rw [DecisionNode.lookup_build_of_shared several shared, DecisionNode.child, same,
      unused_commonMask, ← map_candidate_agreeing]
    exact ih

end Instruction

namespace DecisionTree

/-- For any instructions and any word, the tree answers as filtering all instructions does. -/
theorem lookup_eq_settle (instructions : List Instruction) (word : Word) :
    (build instructions).lookup word = Instruction.settle word 0#16 instructions.zipIdx := by
  rw [← Instruction.lookup_build_eq_settle]
  rfl

end DecisionTree

end DspIsa
