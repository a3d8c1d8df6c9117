import DspIsa.Proofs.Dispatch

/-! Where a word that an instruction may claim ends in the decision tree: at the leaf of that
instruction, or at a node that could not be split and is reported. -/
namespace DspIsa

namespace DecisionNode

/-- A table keeps a candidate and the words that agree with it in one slot. -/
theorem mem_inSlot_of_agrees {free word : Word} {candidates : List Candidate}
    {candidate : Candidate} (member : candidate ∈ candidates)
    (agrees : word &&& candidate.mask = candidate.value &&& candidate.mask) :
    candidate ∈ Candidate.inSlot (Candidate.sharedMask free candidates)
      (Bits.gather word (Candidate.sharedMask free candidates)) candidates := by
  refine Candidate.mem_inSlot.mpr ⟨member, Bits.gather_eq_iff.mpr ?_⟩
  apply Bits.and_eq_and_iff.mpr
  intro bit shared
  have fixed := Candidate.getLsbD_mask_of_sharedMask shared member
  exact (Bits.and_eq_and_iff.mp agrees bit fixed).symm

/-- A word that agrees with a candidate is never sent to another one. -/
theorem lookup_build_of_agrees {word : Word} {candidate : Candidate}
    (agrees : word &&& candidate.mask = candidate.value &&& candidate.mask)
    (free : Word) (candidates : List Candidate) (member : candidate ∈ candidates) :
    (build free candidates).lookup word = some candidate.index ∨
      ((build free candidates).lookup word = none ∧
        ∃ group ∈ (build free candidates).ambiguities, candidate.index ∈ group) := by
  induction free, candidates using build_induction with
  | nothing free => cases member
  | single free only =>
    have same := List.mem_singleton.mp member
    subst same
    exact .inl (by simp [build_singleton])
  | apart free candidates several apart =>
    right
    rw [build_of_not_shared several apart]
    refine ⟨lookup_ambiguous word _, candidates.map (·.index), by simp, ?_⟩
    exact List.mem_map.mpr ⟨candidate, member, rfl⟩
  | table free candidates several shared ih =>
    rw [lookup_build_of_shared several shared]
    rcases ih _ (mem_inSlot_of_agrees member agrees) with found | ⟨missed, group, reported, inGroup⟩
    · exact .inl found
    · refine .inr ⟨missed, group, ?_, inGroup⟩
      exact (mem_ambiguities_build_of_shared several shared).mpr ⟨_, reported⟩

/-- Whatever a tree answers stands at one of its leaves. -/
theorem mem_leaves_of_lookup {word : Word} {index : Nat} (free : Word)
    (candidates : List Candidate) (found : (build free candidates).lookup word = some index) :
    index ∈ (build free candidates).leaves := by
  induction free, candidates using build_induction with
  | nothing free => simp [build_nil] at found
  | single free only =>
    have same : only.index = index := by simpa [build_singleton] using found
    simp [build_singleton, same]
  | apart free candidates several apart =>
    simp [build_of_not_shared several apart] at found
  | table free candidates several shared ih =>
    rw [lookup_build_of_shared several shared] at found
    rw [leaves_build_of_shared several shared, List.mem_flatMap]
    exact ⟨_, List.mem_range.mpr (Bits.gather_lt word _), ih _ found⟩

/-- With one candidate for every index, no index is at a leaf and in a reported group. -/
theorem not_mem_ambiguities_of_mem_leaves {free : Word} {candidates : List Candidate}
    (distinct : (candidates.map (·.index)).Nodup) {index : Nat}
    (leaf : index ∈ (build free candidates).leaves) :
    ∀ group ∈ (build free candidates).ambiguities, index ∉ group := by
  intro group reported inGroup
  have placed := (perm_leaves_ambiguities free candidates).nodup_iff.mpr distinct
  exact (List.nodup_append.mp placed).2.2 index leaf index
    (List.mem_flatten.mpr ⟨group, reported, inGroup⟩) rfl

end DecisionNode

namespace Candidate

theorem map_index_ofInstructions (instructions : List Instruction) :
    (ofInstructions instructions).map (·.index) = List.range instructions.length := by
  simp [ofInstructions, Function.comp_def, List.zipIdx_map_snd, List.range_eq_range']

theorem mem_ofInstructions {instructions : List Instruction} {candidate : Candidate} :
    candidate ∈ ofInstructions instructions ↔
      ∃ instr, instructions[candidate.index]? = some instr ∧
        candidate = ⟨candidate.index, instr.firstWordMask, instr.firstWordValue⟩ := by
  rw [ofInstructions, List.mem_map]
  constructor
  · rintro ⟨⟨instr, index⟩, listed, rfl⟩
    exact ⟨instr, List.mem_zipIdx_iff_getElem?.mp listed, rfl⟩
  · rintro ⟨instr, found, same⟩
    exact ⟨⟨instr, candidate.index⟩, List.mem_zipIdx_iff_getElem?.mpr found, same.symm⟩

end Candidate

namespace DecisionTree

theorem diagnostics_eq_nil_iff {tree : DecisionTree} :
    tree.diagnostics = [] ↔ tree.root.ambiguities = [] :=
  List.map_eq_nil_iff

section

variable {instructions : List Instruction} {index : Nat} {instr : Instruction} {word : Word}

theorem lookup_eq_or_ambiguous (found : instructions[index]? = some instr)
    (agrees : word &&& instr.firstWordMask = instr.firstWordValue &&& instr.firstWordMask) :
    (build instructions).lookup word = some index ∨
      ((build instructions).lookup word = none ∧
        ∃ group ∈ (build instructions).root.ambiguities, index ∈ group) := by
  have member : ⟨index, instr.firstWordMask, instr.firstWordValue⟩ ∈
      Candidate.ofInstructions instructions :=
    Candidate.mem_ofInstructions.mpr ⟨instr, found, rfl⟩
  exact DecisionNode.lookup_build_of_agrees agrees (BitVec.allOnes 16) _ member

/-- No instruction has a leaf and a place in a reported group. -/
theorem not_mem_ambiguous_of_mem_leaves (leaf : index ∈ (build instructions).root.leaves) :
    ∀ group ∈ (build instructions).root.ambiguities, index ∉ group := by
  apply DecisionNode.not_mem_ambiguities_of_mem_leaves _ leaf
  rw [Candidate.map_index_ofInstructions]
  exact List.nodup_range

theorem lookup_ne_some_of_ambiguous {group : List Nat}
    (reported : group ∈ (build instructions).root.ambiguities) (inGroup : index ∈ group) :
    (build instructions).lookup word ≠ some index := by
  intro hit
  have leaf := DecisionNode.mem_leaves_of_lookup (BitVec.allOnes 16) _ hit
  exact not_mem_ambiguous_of_mem_leaves leaf group reported inGroup

theorem lookup_of_silent (silent : (build instructions).diagnostics = [])
    (found : instructions[index]? = some instr)
    (agrees : word &&& instr.firstWordMask = instr.firstWordValue &&& instr.firstWordMask) :
    (build instructions).lookup word = some index := by
  rcases lookup_eq_or_ambiguous found agrees with hit | ⟨_, group, reported, -⟩
  · exact hit
  · rw [diagnostics_eq_nil_iff.mp silent] at reported
    cases reported

/-- Every word that agrees with the fixed first-word bits of an instruction is looked up as that
instruction or as nothing, and as nothing exactly when the instruction is in a group that could not
be split and that a diagnostic reports. -/
theorem lookup_of_agrees (found : instructions[index]? = some instr)
    (agrees : word &&& instr.firstWordMask = instr.firstWordValue &&& instr.firstWordMask) :
    ((build instructions).lookup word = some index ∨ (build instructions).lookup word = none) ∧
    ((build instructions).lookup word = none ↔
      ∃ group ∈ (build instructions).root.ambiguities, index ∈ group ∧
        (build instructions).report group ∈ (build instructions).diagnostics ∧
        ((build instructions).report group).code = "table.indistinguishable") ∧
    ((build instructions).diagnostics = [] → (build instructions).lookup word = some index) := by
  have routed := lookup_eq_or_ambiguous found agrees
  refine ⟨routed.imp_right And.left, ⟨fun missed => ?_, ?_⟩,
    fun silent => lookup_of_silent silent found agrees⟩
  · rcases routed with hit | ⟨_, group, reported, inGroup⟩
    · cases hit.symm.trans missed
    · exact ⟨group, reported, inGroup, List.mem_map.mpr ⟨group, reported, rfl⟩, rfl⟩
  · rintro ⟨group, reported, inGroup, -, -⟩
    exact (routed.resolve_left (lookup_ne_some_of_ambiguous reported inGroup)).1

end

/-- Two instructions that share only the top bit, and a third that the top bit sets apart. -/
def crowded : List Instruction :=
  [⟨"A", "A", [], 0x8001#32, 0x8001#32, .bits16, .line "crowded" 1⟩,
    ⟨"B", "B", [], 0x8002#32, 0x8002#32, .bits16, .line "crowded" 2⟩,
    ⟨"C", "C", [], 0x8000#32, 0x0000#32, .bits16, .line "crowded" 3⟩]

theorem ambiguities_crowded : (build crowded).root.ambiguities = [[0, 1]] := by
  cbv

theorem lookup_of_agrees_crowded :
    (∃ instr, crowded[0]? = some instr ∧
      0x8001#16 &&& instr.firstWordMask = instr.firstWordValue &&& instr.firstWordMask) ∧
    (build crowded).lookup 0x8001#16 = none ∧
    (∃ instr, crowded[2]? = some instr ∧
      0x0001#16 &&& instr.firstWordMask = instr.firstWordValue &&& instr.firstWordMask) ∧
    (build crowded).lookup 0x0001#16 = some 2 := by
  refine ⟨⟨_, rfl, by decide⟩, ?_, ⟨_, rfl, by decide⟩, ?_⟩
  · have routed := lookup_of_agrees (rfl : crowded[0]? = some _)
      (by decide : 0x8001#16 &&& _ = _ &&& _)
    refine routed.2.1.mpr ⟨[0, 1], by simp [ambiguities_crowded], by simp, ?_, rfl⟩
    exact List.mem_map.mpr ⟨[0, 1], by simp [ambiguities_crowded], rfl⟩
  · have routed := lookup_of_agrees (rfl : crowded[2]? = some _)
      (by decide : 0x0001#16 &&& _ = _ &&& _)
    refine routed.1.resolve_right fun missed => ?_
    obtain ⟨group, reported, inGroup, -, -⟩ := routed.2.1.mp missed
    simp only [ambiguities_crowded, List.mem_singleton] at reported
    simp [reported] at inGroup

end DecisionTree

end DspIsa
