import DspIsa.Proofs.Routing

/-! Which bits of a word its way through a decision tree depends on. A table looks at the bits of
its mask; a leaf looks at nothing, so the fixed bits of its instruction may stay unchecked. -/
namespace DspIsa

namespace DecisionNode

/-- The bits that the tables on the way of a word look at. -/
def consulted (word : Word) : DecisionNode → Word
  | .table mask slots =>
    match found : slots[Bits.gather word mask]? with
    | none => mask
    | some node =>
      have := Array.sizeOf_lt_of_mem (Array.mem_of_getElem? found)
      mask ||| node.consulted word
  | _ => 0#16
termination_by node => sizeOf node

@[simp] theorem consulted_empty (word : Word) : empty.consulted word = 0#16 := by
  simp [consulted]

@[simp] theorem consulted_leaf (word : Word) (index : Nat) :
    (leaf index).consulted word = 0#16 := by
  simp [consulted]

@[simp] theorem consulted_ambiguous (word : Word) (indices : List Nat) :
    (ambiguous indices).consulted word = 0#16 := by
  simp [consulted]

@[simp] theorem consulted_table (word mask : Word) (slots : Array DecisionNode) :
    (table mask slots).consulted word =
      mask ||| (slots[Bits.gather word mask]?).elim 0#16 fun node => node.consulted word := by
  rw [consulted]
  split
  · rename_i missing
    simp [missing]
  · rename_i found
    simp [found]

section

variable {word : Word}

theorem consulted_build_of_shared {free : Word} {candidates : List Candidate}
    (several : 2 ≤ candidates.length)
    (shared : Candidate.sharedMask free candidates ≠ 0#16) :
    (build free candidates).consulted word = Candidate.sharedMask free candidates |||
      (child free candidates
        (Bits.gather word (Candidate.sharedMask free candidates))).consulted word := by
  have inside := Bits.gather_lt word (Candidate.sharedMask free candidates)
  rw [build_of_shared several shared, consulted_table]
  simp [inside]

/-- Words that agree on the consulted bits of one of them are looked up alike. -/
theorem lookup_build_congr {other : Word} (free : Word) (candidates : List Candidate)
    (same : ∀ bit, ((build free candidates).consulted word).getLsbD bit = true →
      other.getLsbD bit = word.getLsbD bit) :
    (build free candidates).lookup other = (build free candidates).lookup word := by
  induction free, candidates using build_induction with
  | nothing free => simp [build_nil]
  | single free only => simp [build_singleton]
  | apart free candidates several apart => simp [build_of_not_shared several apart]
  | table free candidates several shared ih =>
    rw [consulted_build_of_shared several shared] at same
    have slot : Bits.gather other (Candidate.sharedMask free candidates) =
        Bits.gather word (Candidate.sharedMask free candidates) := by
      apply Bits.gather_eq_iff.mpr
      apply Bits.and_eq_and_iff.mpr
      intro bit looked
      exact same bit (by simp [looked])
    rw [lookup_build_of_shared several shared, lookup_build_of_shared several shared, slot]
    refine ih _ fun bit looked => same bit ?_
    rw [BitVec.getLsbD_or, Bool.or_eq_true]
    exact .inr looked

/-- The candidate at a leaf fixes every bit that was consulted, as the word has it. -/
theorem exists_candidate_of_lookup {index : Nat} (free : Word) (candidates : List Candidate)
    (hit : (build free candidates).lookup word = some index) :
    ∃ candidate ∈ candidates, candidate.index = index ∧
      ∀ bit, ((build free candidates).consulted word).getLsbD bit = true →
        candidate.mask.getLsbD bit = true ∧
          word.getLsbD bit = candidate.value.getLsbD bit := by
  induction free, candidates using build_induction with
  | nothing free => simp [build_nil] at hit
  | single free only =>
    have same : only.index = index := by simpa [build_singleton] using hit
    exact ⟨only, by simp, same, fun bit looked => by simp [build_singleton] at looked⟩
  | apart free candidates several apart => simp [build_of_not_shared several apart] at hit
  | table free candidates several shared ih =>
    rw [lookup_build_of_shared several shared] at hit
    obtain ⟨candidate, member, same, below⟩ := ih _ hit
    obtain ⟨member, slot⟩ := Candidate.mem_inSlot.mp member
    refine ⟨candidate, member, same, fun bit looked => ?_⟩
    rw [consulted_build_of_shared several shared, BitVec.getLsbD_or, Bool.or_eq_true] at looked
    rcases looked with here | later
    · have agrees := Bits.and_eq_and_iff.mp (Bits.gather_eq_iff.mp slot) bit here
      exact ⟨Candidate.getLsbD_mask_of_sharedMask here member, agrees.symm⟩
    · exact below bit later

end

end DecisionNode

namespace DecisionTree

def consulted (tree : DecisionTree) (word : Word) : Word := tree.root.consulted word

section

variable {instructions : List Instruction} {word : Word}

theorem lookup_congr {other : Word}
    (same : ∀ bit, ((build instructions).consulted word).getLsbD bit = true →
      other.getLsbD bit = word.getLsbD bit) :
    (build instructions).lookup other = (build instructions).lookup word :=
  DecisionNode.lookup_build_congr (BitVec.allOnes 16) _ same

theorem exists_instruction_of_lookup {index : Nat}
    (hit : (build instructions).lookup word = some index) :
    ∃ instr, instructions[index]? = some instr ∧
      ∀ bit, ((build instructions).consulted word).getLsbD bit = true →
        instr.firstWordMask.getLsbD bit = true ∧
          word.getLsbD bit = instr.firstWordValue.getLsbD bit := by
  obtain ⟨candidate, member, rfl, looked⟩ :=
    DecisionNode.exists_candidate_of_lookup (BitVec.allOnes 16) _ hit
  obtain ⟨instr, found, same⟩ := Candidate.mem_ofInstructions.mp member
  rw [same] at looked
  exact ⟨instr, found, looked⟩

end

end DecisionTree

end DspIsa
