import DspIsa.Proofs.Routing

/-! Which groups of instructions a decision tree cannot split: those that agree on every first-word
bit that all of their members fix. It reports the largest of them, and no other group. -/
namespace DspIsa

/-- Some bit that every member of the group fixes and on which two of them differ. -/
def Separable {Item : Type} (mask value : Item → Word) (group : List Item) : Prop :=
  ∃ bit, (∀ item ∈ group, (mask item).getLsbD bit = true) ∧
    ∃ first ∈ group, ∃ second ∈ group,
      (value first).getLsbD bit ≠ (value second).getLsbD bit

theorem separable_map {Item Source : Type} {mask value : Item → Word} (label : Source → Item)
    (group : List Source) :
    Separable mask value (group.map label) ↔
      Separable (fun source => mask (label source)) (fun source => value (label source)) group := by
  simp [Separable]

theorem getLsbD_eq_of_not_separable {Item : Type} {mask value : Item → Word} {group : List Item}
    (inseparable : ¬ Separable mask value group) {bit : Nat}
    (fixed : ∀ item ∈ group, (mask item).getLsbD bit = true)
    {first second : Item} (left : first ∈ group) (right : second ∈ group) :
    (value first).getLsbD bit = (value second).getLsbD bit := by
  by_contra differ
  exact inseparable ⟨bit, fixed, first, left, second, right, differ⟩

namespace DecisionNode

variable {group : List Candidate}

/-- A group that no bit splits stays together in one slot of a table. -/
theorem sublist_inSlot_of_not_separable {free : Word} {candidates : List Candidate}
    (inseparable : ¬ Separable Candidate.mask Candidate.value group)
    (part : group.Sublist candidates) {member : Candidate} (present : member ∈ group) :
    group.Sublist (Candidate.inSlot (Candidate.sharedMask free candidates)
      (Bits.gather member.value (Candidate.sharedMask free candidates)) candidates) := by
  have together : Candidate.inSlot (Candidate.sharedMask free candidates)
      (Bits.gather member.value (Candidate.sharedMask free candidates)) group = group := by
    apply List.filter_eq_self.mpr
    intro other listed
    refine beq_iff_eq.mpr (Bits.gather_eq_iff.mpr (Bits.and_eq_and_iff.mpr ?_))
    intro bit shared
    exact getLsbD_eq_of_not_separable inseparable
      (fun item inGroup => Candidate.getLsbD_mask_of_sharedMask shared (part.subset inGroup))
      listed present
  rw [← together]
  exact part.filter _

/-- A group of two or more that no bit splits is reported, perhaps within a larger group. -/
theorem exists_ambiguous_of_not_separable
    (inseparable : ¬ Separable Candidate.mask Candidate.value group)
    (several : 2 ≤ group.length) (free : Word) (candidates : List Candidate)
    (part : group.Sublist candidates) :
    ∃ indices ∈ (build free candidates).ambiguities,
      (group.map (·.index)).Sublist indices := by
  induction free, candidates using build_induction with
  | nothing free =>
    have bound := part.length_le
    simp only [List.length_nil] at bound
    omega
  | single free only =>
    have bound := part.length_le
    simp only [List.length_singleton] at bound
    omega
  | apart free candidates many apart =>
    exact ⟨candidates.map (·.index), by simp [build_of_not_shared many apart], part.map _⟩
  | table free candidates many shared ih =>
    have nonempty : group ≠ [] := by
      rintro rfl
      simp at several
    obtain ⟨member, present⟩ := List.exists_mem_of_ne_nil group nonempty
    obtain ⟨indices, reported, inside⟩ :=
      ih _ (sublist_inSlot_of_not_separable inseparable part present)
    exact ⟨indices, (mem_ambiguities_build_of_shared many shared).mpr ⟨_, reported⟩, inside⟩

/-- The candidates agree on every bit that tables have looked at. -/
def Agreed (free : Word) (candidates : List Candidate) : Prop :=
  ∀ bit, free.getLsbD bit = false → ∀ first ∈ candidates, ∀ second ∈ candidates,
    first.value.getLsbD bit = second.value.getLsbD bit

theorem agreed_allOnes (candidates : List Candidate) :
    Agreed (BitVec.allOnes 16) candidates := by
  intro bit outside first _ second _
  rw [BitVec.getLsbD_allOnes] at outside
  have past : 16 ≤ bit := Nat.le_of_not_lt (of_decide_eq_false outside)
  rw [BitVec.getLsbD_of_ge first.value bit past, BitVec.getLsbD_of_ge second.value bit past]

theorem Agreed.inSlot {free : Word} {candidates : List Candidate} (agreed : Agreed free candidates)
    (mask : Word) (slot : Nat) :
    Agreed (Candidate.unused free mask) (Candidate.inSlot mask slot candidates) := by
  intro bit used first left second right
  obtain ⟨left, leftSlot⟩ := Candidate.mem_inSlot.mp left
  obtain ⟨right, rightSlot⟩ := Candidate.mem_inSlot.mp right
  rw [Candidate.getLsbD_unused] at used
  cases before : free.getLsbD bit with
  | false => exact agreed bit before first left second right
  | true =>
    have looked : mask.getLsbD bit = true := by simpa [before] using used
    have same := Bits.gather_eq_iff.mp (leftSlot.trans rightSlot.symm)
    exact Bits.and_eq_and_iff.mp same bit looked

/-- Every reported group is one of two or more candidates that no bit splits. -/
theorem exists_sublist_of_ambiguous {free : Word} {candidates : List Candidate}
    (agreed : Agreed free candidates) {indices : List Nat}
    (reported : indices ∈ (build free candidates).ambiguities) :
    ∃ group, group.Sublist candidates ∧ group.map (·.index) = indices ∧ 2 ≤ group.length ∧
      ¬ Separable Candidate.mask Candidate.value group := by
  induction free, candidates using build_induction with
  | nothing free => simp [build_nil] at reported
  | single free only => simp [build_singleton] at reported
  | apart free candidates many apart =>
    have same : indices = candidates.map (·.index) := by
      simpa [build_of_not_shared many apart] using reported
    refine ⟨candidates, List.Sublist.refl _, same.symm, many, ?_⟩
    rintro ⟨bit, fixed, first, left, second, right, differ⟩
    refine differ (agreed bit ?_ first left second right)
    have unshared : (Candidate.sharedMask free candidates).getLsbD bit = false := by simp [apart]
    rw [Candidate.getLsbD_sharedMask, List.all_eq_true.mpr fixed, Bool.and_true] at unshared
    exact unshared
  | table free candidates many shared ih =>
    obtain ⟨slot, reported⟩ := (mem_ambiguities_build_of_shared many shared).mp reported
    obtain ⟨group, part, same, several, inseparable⟩ :=
      ih slot (agreed.inSlot _ slot) reported
    exact ⟨group, part.trans List.filter_sublist, same, several, inseparable⟩

end DecisionNode

namespace Candidate

variable {instructions : List Instruction}

theorem exists_sublist_ofInstructions {group : List Instruction}
    (part : group.Sublist instructions) :
    ∃ candidates : List Candidate, candidates.Sublist (ofInstructions instructions) ∧
      candidates.length = group.length ∧
      (Separable Candidate.mask Candidate.value candidates ↔
        Separable Instruction.firstWordMask Instruction.firstWordValue group) := by
  rw [← List.zipIdx_map_fst 0 instructions] at part
  obtain ⟨tagged, kept, rfl⟩ := List.sublist_map_iff.mp part
  refine ⟨_, kept.map _, by simp, ?_⟩
  rw [separable_map, separable_map]

theorem exists_sublist_instructions {candidates : List Candidate}
    (part : candidates.Sublist (ofInstructions instructions)) :
    ∃ group : List Instruction, group.Sublist instructions ∧
      group.length = candidates.length ∧
      (Separable Candidate.mask Candidate.value candidates ↔
        Separable Instruction.firstWordMask Instruction.firstWordValue group) := by
  obtain ⟨tagged, kept, rfl⟩ := List.sublist_map_iff.mp part
  refine ⟨tagged.map Prod.fst, ?_, by simp, ?_⟩
  · have untagged := kept.map Prod.fst
    rwa [List.zipIdx_map_fst] at untagged
  · rw [separable_map, separable_map]

end Candidate

namespace Instruction

/-- Some bit tells the first words of two instructions apart. -/
def Apart (first second : Instruction) : Prop :=
  ∃ bit, first.firstWordMask.getLsbD bit = true ∧ second.firstWordMask.getLsbD bit = true ∧
    first.firstWordValue.getLsbD bit ≠ second.firstWordValue.getLsbD bit

theorem Apart.separable {first second : Instruction} (apart : Apart first second) :
    Separable firstWordMask firstWordValue [first, second] := by
  obtain ⟨bit, left, right, differ⟩ := apart
  exact ⟨bit, by simp [left, right], first, by simp, second, by simp, differ⟩

/-- Every group of two or more instructions has a first-word bit that splits it. -/
def Separated (instructions : List Instruction) : Prop :=
  ∀ group, group.Sublist instructions → 2 ≤ group.length →
    Separable firstWordMask firstWordValue group

theorem Apart.separated {first second : Instruction} (apart : Apart first second) :
    Separated [first, second] := by
  intro group part several
  rw [part.eq_of_length_le several]
  exact apart.separable

end Instruction

namespace DecisionTree

variable {instructions : List Instruction}

/-- A tree reports nothing exactly when its instructions are separated. -/
theorem silent_iff_separated :
    (build instructions).diagnostics = [] ↔ Instruction.Separated instructions := by
  rw [diagnostics_eq_nil_iff]
  constructor
  · intro silent group part several
    obtain ⟨candidates, part, size, same⟩ := Candidate.exists_sublist_ofInstructions part
    by_contra inseparable
    obtain ⟨indices, reported, -⟩ := DecisionNode.exists_ambiguous_of_not_separable
      (mt same.mp inseparable) (size ▸ several) (BitVec.allOnes 16) _ part
    have nothing : indices ∈ (build instructions).root.ambiguities := reported
    rw [silent] at nothing
    cases nothing
  · intro separable
    apply List.eq_nil_iff_forall_not_mem.mpr
    intro indices reported
    obtain ⟨candidates, part, -, several, inseparable⟩ :=
      DecisionNode.exists_sublist_of_ambiguous (DecisionNode.agreed_allOnes _) reported
    obtain ⟨group, part, size, same⟩ := Candidate.exists_sublist_instructions part
    exact inseparable (same.mpr (separable group part (size ▸ several)))

/-- Where every two instructions are apart, no two of them alone are a reported group. -/
theorem three_le_length_of_ambiguous (apart : instructions.Pairwise Instruction.Apart)
    {indices : List Nat} (reported : indices ∈ (build instructions).root.ambiguities) :
    3 ≤ indices.length := by
  obtain ⟨candidates, part, rfl, several, inseparable⟩ :=
    DecisionNode.exists_sublist_of_ambiguous (DecisionNode.agreed_allOnes _) reported
  obtain ⟨group, part, size, same⟩ := Candidate.exists_sublist_instructions part
  rw [List.length_map]
  by_contra few
  have pair : group.length = 2 := by omega
  obtain ⟨first, second, rfl⟩ := List.length_eq_two.mp pair
  have differ := List.pairwise_pair.mp (apart.sublist part)
  exact inseparable (same.mpr differ.separable)

end DecisionTree

end DspIsa
