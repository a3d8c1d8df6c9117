import DspIsa.Proofs.Routing
import Mathlib.Data.List.FinRange

/-! Instructions in another order. A tree looks at what its candidates fix, not at the order in
which they come, so the tables stay as they are and the leaves are renamed with the instructions. -/
namespace DspIsa

namespace DecisionNode

/-- The second node has the tables of the first one, slot for slot, and its leaves are those of the
first one renamed. What could not be split is the same group in some order. -/
inductive Renames (names : Nat → Nat) : DecisionNode → DecisionNode → Prop where
  | empty : Renames names .empty .empty
  | leaf (index : Nat) : Renames names (.leaf index) (.leaf (names index))
  | ambiguous {indices others : List Nat} (same : (indices.map names).Perm others) :
      Renames names (.ambiguous indices) (.ambiguous others)
  | table (mask : Word) {slots others : Array DecisionNode} (size : slots.size = others.size)
      (each : ∀ (slot : Nat) node other, slots[slot]? = some node → others[slot]? = some other →
        Renames names node other) :
      Renames names (.table mask slots) (.table mask others)

/-- What agrees slot for slot agrees on the whole table. -/
theorem map_slots_eq {Result : Type} (measure : DecisionNode → Result)
    {slots others : Array DecisionNode} (size : slots.size = others.size)
    (each : ∀ (slot : Nat) node other, slots[slot]? = some node → others[slot]? = some other →
      measure node = measure other) :
    slots.map measure = others.map measure := by
  apply Array.ext
  · simpa using size
  · intro slot inside also
    rw [Array.size_map] at inside also
    rw [Array.getElem_map, Array.getElem_map]
    exact each slot _ _ (Array.getElem?_eq_getElem inside) (Array.getElem?_eq_getElem also)

namespace Renames

variable {names : Nat → Nat} {node other : DecisionNode}

theorem lookup (renames : Renames names node other) (word : Word) :
    (node.lookup word).map names = other.lookup word := by
  induction renames with
  | empty => simp
  | leaf index => simp
  | ambiguous same => simp
  | @table mask slots others size each ih =>
    rw [lookup_table, lookup_table]
    by_cases inside : Bits.gather word mask < slots.size
    · have found := Array.getElem?_eq_getElem inside
      have there := Array.getElem?_eq_getElem (Nat.lt_of_lt_of_eq inside size)
      rw [found, there]
      exact ih _ _ _ found there
    · have outside := Nat.le_of_not_lt inside
      rw [Array.getElem?_eq_none outside, Array.getElem?_eq_none (size ▸ outside)]
      rfl

theorem tableCount (renames : Renames names node other) :
    node.tableCount = other.tableCount := by
  induction renames with
  | empty => rfl
  | leaf index => simp [DecisionNode.tableCount]
  | ambiguous same => simp [DecisionNode.tableCount]
  | table mask size each ih =>
    rw [DecisionNode.tableCount, DecisionNode.tableCount, map_slots_eq _ size ih]

theorem depth (renames : Renames names node other) : node.depth = other.depth := by
  induction renames with
  | empty => rfl
  | leaf index => simp [DecisionNode.depth]
  | ambiguous same => simp [DecisionNode.depth]
  | table mask size each ih =>
    rw [DecisionNode.depth, DecisionNode.depth, map_slots_eq _ size ih]

theorem length_ambiguities (renames : Renames names node other) :
    node.ambiguities.length = other.ambiguities.length := by
  induction renames with
  | empty => rfl
  | leaf index => simp
  | ambiguous same => simp
  | table mask size each ih =>
    have counts := map_slots_eq (fun node => node.ambiguities.length) size ih
    rw [ambiguities, ambiguities, List.length_flatten, List.length_flatten]
    simpa [Function.comp_def] using congrArg (fun counts => counts.toList.sum) counts

end Renames

end DecisionNode

namespace Candidate

variable {free mask : Word} {candidates others : List Candidate}

/-- The candidate under another index. -/
def rename (names : Nat → Nat) (candidate : Candidate) : Candidate :=
  { candidate with index := names candidate.index }

theorem sharedMask_perm (free : Word) (same : candidates.Perm others) :
    sharedMask free candidates = sharedMask free others := by
  apply BitVec.eq_of_getLsbD_eq
  intro bit _
  rw [getLsbD_sharedMask, getLsbD_sharedMask, same.all_eq]

theorem sharedMask_rename (names : Nat → Nat) :
    sharedMask free (candidates.map (rename names)) = sharedMask free candidates := by
  simp [sharedMask, List.foldl_map, rename]

theorem inSlot_rename (names : Nat → Nat) (slot : Nat) :
    inSlot mask slot (candidates.map (rename names)) =
      (inSlot mask slot candidates).map (rename names) := by
  simp [inSlot, List.filter_map, rename, Function.comp_def]

end Candidate

namespace DecisionNode

/-- Candidates that are renamed and put in another order build the same tables. -/
theorem renames_build (names : Nat → Nat) (free : Word) (candidates : List Candidate) :
    ∀ others, (candidates.map (Candidate.rename names)).Perm others →
      (build free candidates).Renames names (build free others) := by
  -- the other list stays open in the induction: every slot takes its part out of both lists
  induction free, candidates using build_induction with
  | nothing free =>
    intro others same
    rw [List.nil_perm.mp same, build_nil]
    exact .empty
  | single free only =>
    intro others same
    rw [← List.singleton_perm.mp same, build_singleton, build_singleton]
    exact .leaf _
  | apart free candidates several apart =>
    intro others same
    have size := same.length_eq
    rw [List.length_map] at size
    have mask := Candidate.sharedMask_perm free same
    rw [Candidate.sharedMask_rename, apart] at mask
    rw [build_of_not_shared several apart, build_of_not_shared (size ▸ several) mask.symm]
    refine .ambiguous ?_
    simpa [Function.comp_def, Candidate.rename] using same.map (·.index)
  | table free candidates several shared ih =>
    intro others same
    have size := same.length_eq
    rw [List.length_map] at size
    have mask := Candidate.sharedMask_perm free same
    rw [Candidate.sharedMask_rename] at mask
    rw [build_of_shared several shared, build_of_shared (size ▸ several) (mask ▸ shared), ← mask]
    refine .table _ (by simp) fun slot node other found there => ?_
    rw [eq_of_getElem?_map_range found, eq_of_getElem?_map_range there, child, child, ← mask]
    refine ih slot _ ?_
    rw [← Candidate.inSlot_rename]
    exact same.filter _

end DecisionNode

variable {instructions : List Instruction}

/-- The instructions in another order: every place takes the one that `order` names. -/
def reorder (instructions : List Instruction) (order : Equiv.Perm (Fin instructions.length)) :
    List Instruction :=
  List.ofFn fun place => instructions.get (order place)

/-- Where the instruction at a place of the new order stood before. -/
def formerIndex (order : Equiv.Perm (Fin instructions.length)) (index : Nat) : Nat :=
  if inside : index < instructions.length then order ⟨index, inside⟩ else index

theorem getElem?_reorder (order : Equiv.Perm (Fin instructions.length)) (index : Nat) :
    (reorder instructions order)[index]? = instructions[formerIndex order index]? := by
  rw [reorder, formerIndex, List.getElem?_ofFn]
  split
  · exact (List.getElem?_eq_getElem (order _).isLt).symm
  · rename_i outside
    exact (List.getElem?_eq_none (Nat.le_of_not_lt outside)).symm

namespace Candidate

/-- The instruction at a place as a candidate. -/
def ofPlace (instructions : List Instruction) (place : Fin instructions.length) : Candidate :=
  ⟨place, instructions[place].firstWordMask, instructions[place].firstWordValue⟩

theorem ofInstructions_eq_ofFn (instructions : List Instruction) :
    ofInstructions instructions = List.ofFn (ofPlace instructions) := by
  apply List.ext_getElem
  · simp [ofInstructions]
  · intro index inside also
    simp [ofInstructions, ofPlace]

theorem map_rename_ofInstructions_reorder (order : Equiv.Perm (Fin instructions.length)) :
    (ofInstructions (reorder instructions order)).map (rename (formerIndex order)) =
      List.ofFn (ofPlace instructions ∘ order) := by
  apply List.ext_getElem
  · simp [ofInstructions, reorder]
  · intro index inside also
    have place : index < instructions.length := by simpa using also
    simp [ofInstructions, ofPlace, reorder, formerIndex, rename, place]

/-- The candidates of the new order, under the indices they had, are those of the old one. -/
theorem perm_ofInstructions_reorder (order : Equiv.Perm (Fin instructions.length)) :
    ((ofInstructions (reorder instructions order)).map (rename (formerIndex order))).Perm
      (ofInstructions instructions) := by
  rw [map_rename_ofInstructions_reorder, ofInstructions_eq_ofFn]
  exact order.ofFn_comp_perm _

end Candidate

namespace DecisionTree

/-- In whatever order the instructions come, the tree has the same tables with the same slots, its
leaves renamed with the instructions. It reports as many groups, has as many tables and is as deep,
and every word leads to the same instruction. -/
theorem renames_reorder (instructions : List Instruction)
    (order : Equiv.Perm (Fin instructions.length)) :
    let tree := build instructions
    let other := build (reorder instructions order)
    other.root.Renames (formerIndex order) tree.root ∧
      other.diagnostics.length = tree.diagnostics.length ∧
      other.tableCount = tree.tableCount ∧ other.depth = tree.depth ∧
      ∀ word, (other.lookup word).map (formerIndex order) = tree.lookup word ∧
        ((other.lookup word).bind fun index => (reorder instructions order)[index]?) =
          (tree.lookup word).bind fun index => instructions[index]? := by
  intro tree other
  have renames : other.root.Renames (formerIndex order) tree.root :=
    DecisionNode.renames_build _ _ _ _ (Candidate.perm_ofInstructions_reorder order)
  refine ⟨renames, ?_, renames.tableCount, renames.depth, fun word => ⟨renames.lookup word, ?_⟩⟩
  · rw [diagnostics, diagnostics, List.length_map, List.length_map]
    exact renames.length_ambiguities
  · have same : (other.lookup word).map (formerIndex order) = tree.lookup word :=
      renames.lookup word
    rw [← same, Option.bind_map]
    simp only [getElem?_reorder]
    rfl

end DecisionTree

end DspIsa
