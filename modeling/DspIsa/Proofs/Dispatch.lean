import DspIsa.DecisionTree
import DspIsa.Proofs.Bits
import Mathlib.Data.Fintype.Basic
import Mathlib.Data.List.Permutation

/-! What building a decision tree does, one law for each kind of node. Its leaves and the groups it
could not split hold every candidate once. -/
namespace DspIsa

namespace Candidate

/-- The candidates that a table puts into one slot, in their old order. -/
def inSlot (mask : Word) (slot : Nat) (candidates : List Candidate) : List Candidate :=
  candidates.filter fun candidate => Bits.gather candidate.value mask == slot

theorem mem_inSlot {mask : Word} {slot : Nat} {candidates : List Candidate}
    {candidate : Candidate} :
    candidate ∈ inSlot mask slot candidates ↔
      candidate ∈ candidates ∧ Bits.gather candidate.value mask = slot := by
  simp [inSlot]

theorem atSlot_map (mask : Word) (slot : Nat) (candidates : List Candidate) :
    atSlot (candidates.map fun candidate => (Bits.gather candidate.value mask, candidate)) slot =
      inSlot mask slot candidates := by
  simp [atSlot, inSlot, List.filter_map, Function.comp_def]

/-- A slot number that no value under the mask has. -/
theorem inSlot_eq_nil {mask : Word} {slot : Nat} {candidates : List Candidate}
    (outside : 2 ^ (Bits.setBits mask).length ≤ slot) : inSlot mask slot candidates = [] := by
  apply List.filter_eq_nil_iff.mpr
  intro candidate _
  have inside := Bits.gather_lt candidate.value mask
  simp only [beq_iff_eq]
  omega

theorem getLsbD_mask_of_sharedMask {free : Word} {candidates : List Candidate} {bit : Nat}
    (shared : (sharedMask free candidates).getLsbD bit = true) {candidate : Candidate}
    (member : candidate ∈ candidates) : candidate.mask.getLsbD bit = true := by
  rw [getLsbD_sharedMask, Bool.and_eq_true] at shared
  exact List.all_eq_true.mp shared.2 candidate member

theorem getLsbD_unused (free mask : Word) (bit : Nat) :
    (unused free mask).getLsbD bit = (free.getLsbD bit && !mask.getLsbD bit) :=
  Bits.getLsbD_and_not free mask bit

/-- The slots of a table, put behind one another, hold every candidate once. -/
theorem perm_flatMap_inSlot (mask : Word) (candidates : List Candidate) :
    ((List.range (2 ^ (Bits.setBits mask).length)).flatMap
      fun slot => inSlot mask slot candidates).Perm candidates := by
  have upTo (slots : Nat) :
      ((List.range slots).flatMap fun slot => inSlot mask slot candidates).Perm
        (candidates.filter fun candidate => decide (Bits.gather candidate.value mask < slots)) := by
    induction slots with
    | zero => simp
    | succ slots ih =>
      rw [List.range_succ, List.flatMap_append, List.flatMap_singleton]
      refine (ih.append_right _).trans ?_
      have parts := List.filter_append_perm
        (fun candidate : Candidate => decide (Bits.gather candidate.value mask < slots))
        (candidates.filter fun candidate =>
          decide (Bits.gather candidate.value mask < slots + 1))
      rw [List.filter_filter, List.filter_filter] at parts
      refine List.Perm.trans (List.Perm.of_eq ?_) parts
      congr 1
      · apply List.filter_congr
        intro candidate _
        by_cases below : Bits.gather candidate.value mask < slots
        · have next : Bits.gather candidate.value mask < slots + 1 := by omega
          simp [below, next]
        · simp [below]
      · apply List.filter_congr
        intro candidate _
        by_cases here : Bits.gather candidate.value mask = slots
        · simp [here]
        · by_cases below : Bits.gather candidate.value mask < slots
          · simp [here, below]
          · have above : ¬ Bits.gather candidate.value mask < slots + 1 := by omega
            simp [here, above]
  have everyOne := upTo (2 ^ (Bits.setBits mask).length)
  rwa [List.filter_eq_self.mpr] at everyOne
  intro candidate _
  exact decide_eq_true (Bits.gather_lt candidate.value mask)

end Candidate

namespace DecisionNode

/-- The indices at the leaves, in slot order. -/
def leaves : DecisionNode → List Nat
  | .leaf index => [index]
  | .table _ slots => (slots.map leaves).toList.flatten
  | _ => []

@[simp] theorem lookup_empty (word : Word) : empty.lookup word = none := by simp [lookup]

@[simp] theorem lookup_leaf (word : Word) (index : Nat) :
    (leaf index).lookup word = some index := by
  simp [lookup]

@[simp] theorem lookup_ambiguous (word : Word) (indices : List Nat) :
    (ambiguous indices).lookup word = none := by
  simp [lookup]

@[simp] theorem leaves_empty : empty.leaves = [] := by simp [leaves]

@[simp] theorem leaves_leaf (index : Nat) : (leaf index).leaves = [index] := by simp [leaves]

@[simp] theorem leaves_ambiguous (indices : List Nat) : (ambiguous indices).leaves = [] := by
  simp [leaves]

@[simp] theorem ambiguities_empty : empty.ambiguities = [] := by simp [ambiguities]

@[simp] theorem ambiguities_leaf (index : Nat) : (leaf index).ambiguities = [] := by
  simp [ambiguities]

@[simp] theorem ambiguities_ambiguous (indices : List Nat) :
    (ambiguous indices).ambiguities = [indices] := by
  simp [ambiguities]

/-- The node in one slot of the table over these candidates. -/
def child (free : Word) (candidates : List Candidate) (slot : Nat) : DecisionNode :=
  build (Candidate.unused free (Candidate.sharedMask free candidates))
    (Candidate.inSlot (Candidate.sharedMask free candidates) slot candidates)

theorem build_nil (free : Word) : build free [] = .empty := by
  rw [build]

theorem build_singleton (free : Word) (only : Candidate) :
    build free [only] = .leaf only.index := by
  rw [build]

theorem build_of_not_shared {free : Word} {candidates : List Candidate}
    (several : 2 ≤ candidates.length)
    (apart : Candidate.sharedMask free candidates = 0#16) :
    build free candidates = .ambiguous (candidates.map (·.index)) := by
  match candidates, several with
  | first :: second :: rest, _ =>
    rw [build]
    simp only [apart, ↓reduceDIte]

theorem build_of_shared {free : Word} {candidates : List Candidate}
    (several : 2 ≤ candidates.length)
    (shared : Candidate.sharedMask free candidates ≠ 0#16) :
    build free candidates = .table (Candidate.sharedMask free candidates)
      ((Array.range (2 ^ (Bits.setBits (Candidate.sharedMask free candidates)).length)).map
        (child free candidates)) := by
  match candidates, several with
  | first :: second :: rest, _ =>
    rw [build]
    simp only [shared, ↓reduceDIte, Candidate.atSlot_map, Nat.one_shiftLeft]
    rfl

theorem eq_of_getElem?_map_range {Item : Type} {item : Nat → Item} {size slot : Nat} {found : Item}
    (inside : ((Array.range size).map item)[slot]? = some found) : found = item slot := by
  rw [Array.getElem?_map, Option.map_eq_some_iff] at inside
  obtain ⟨place, listed, same⟩ := inside
  rw [Array.getElem?_range] at listed
  split at listed
  · cases listed
    exact same.symm
  · cases listed

/-- Follows the construction of a tree: nothing left, one candidate, candidates without a shared
free bit, or a table whose slots have been treated before. -/
theorem build_induction {motive : Word → List Candidate → Prop}
    (nothing : ∀ free, motive free [])
    (single : ∀ free only, motive free [only])
    (apart : ∀ free candidates, 2 ≤ candidates.length →
      Candidate.sharedMask free candidates = 0#16 → motive free candidates)
    (table : ∀ free candidates, 2 ≤ candidates.length →
      Candidate.sharedMask free candidates ≠ 0#16 →
      (∀ slot, motive (Candidate.unused free (Candidate.sharedMask free candidates))
        (Candidate.inSlot (Candidate.sharedMask free candidates) slot candidates)) →
      motive free candidates)
    (free : Word) (candidates : List Candidate) : motive free candidates := by
  match candidates with
  | [] => exact nothing free
  | [only] => exact single free only
  | first :: second :: rest =>
    have several : 2 ≤ (first :: second :: rest).length := by simp
    by_cases shared : Candidate.sharedMask free (first :: second :: rest) = 0#16
    · exact apart free _ several shared
    · have smaller := Candidate.toNat_unused_lt shared
      exact table free _ several shared fun slot =>
        build_induction nothing single apart table _ _
termination_by free.toNat

/-- A word goes to the slot that its bits under the table's mask name. -/
theorem lookup_build_of_shared {free word : Word} {candidates : List Candidate}
    (several : 2 ≤ candidates.length)
    (shared : Candidate.sharedMask free candidates ≠ 0#16) :
    (build free candidates).lookup word =
      (child free candidates
        (Bits.gather word (Candidate.sharedMask free candidates))).lookup word := by
  have inside := Bits.gather_lt word (Candidate.sharedMask free candidates)
  rw [build_of_shared several shared, lookup_table]
  simp [inside]

theorem leaves_build_of_shared {free : Word} {candidates : List Candidate}
    (several : 2 ≤ candidates.length)
    (shared : Candidate.sharedMask free candidates ≠ 0#16) :
    (build free candidates).leaves =
      (List.range (2 ^ (Bits.setBits (Candidate.sharedMask free candidates)).length)).flatMap
        fun slot => (child free candidates slot).leaves := by
  rw [build_of_shared several shared, leaves]
  simp [List.flatMap_def, Function.comp_def]

theorem ambiguities_build_of_shared {free : Word} {candidates : List Candidate}
    (several : 2 ≤ candidates.length)
    (shared : Candidate.sharedMask free candidates ≠ 0#16) :
    (build free candidates).ambiguities =
      (List.range (2 ^ (Bits.setBits (Candidate.sharedMask free candidates)).length)).flatMap
        fun slot => (child free candidates slot).ambiguities := by
  rw [build_of_shared several shared, ambiguities]
  simp [List.flatMap_def, Function.comp_def]

/-- The groups of a table are those of its slots; a slot past the last one has none. -/
theorem mem_ambiguities_build_of_shared {free : Word} {candidates : List Candidate}
    {group : List Nat} (several : 2 ≤ candidates.length)
    (shared : Candidate.sharedMask free candidates ≠ 0#16) :
    group ∈ (build free candidates).ambiguities ↔
      ∃ slot, group ∈ (child free candidates slot).ambiguities := by
  rw [ambiguities_build_of_shared several shared, List.mem_flatMap]
  constructor
  · rintro ⟨slot, _, reported⟩
    exact ⟨slot, reported⟩
  · rintro ⟨slot, reported⟩
    refine ⟨slot, List.mem_range.mpr (Nat.lt_of_not_le fun outside => ?_), reported⟩
    simp [child, Candidate.inSlot_eq_nil outside, build_nil] at reported

/-- Every candidate ends as one leaf or in one reported group, and nothing else does. -/
theorem perm_leaves_ambiguities (free : Word) (candidates : List Candidate) :
    ((build free candidates).leaves ++ (build free candidates).ambiguities.flatten).Perm
      (candidates.map (·.index)) := by
  induction free, candidates using build_induction with
  | nothing free => simp [build_nil]
  | single free only => simp [build_singleton]
  | apart free candidates several apart => simp [build_of_not_shared several apart]
  | table free candidates several shared ih =>
    rw [leaves_build_of_shared several shared, ambiguities_build_of_shared several shared]
    simp only [List.flatten_eq_flatMap, List.flatMap_assoc] at ih ⊢
    refine (List.flatMap_append_perm _ _ _).trans ?_
    refine (List.Perm.flatMap_left _ fun slot _ => ih slot).trans ?_
    rw [← List.map_flatMap]
    exact (Candidate.perm_flatMap_inSlot _ candidates).map _

end DecisionNode

end DspIsa
