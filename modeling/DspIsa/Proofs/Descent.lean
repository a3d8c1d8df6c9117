import DspIsa.Proofs.Routing

/-! What stands where in a decision tree. On every way down, a table uses bits that the tables above
it left free and that all instructions below it fix; each instruction ends in exactly one place. -/
namespace DspIsa

namespace Bits

variable {w : Nat}

theorem length_setBits (mask : BitVec w) : (setBits mask).length = mask.cpop.toNat := by
  have upTo (bound start : Nat) : mask.cpopNatRec bound start =
      start + ((List.range bound).filter fun bit => mask.getLsbD bit).length := by
    induction bound generalizing start with
    | zero => simp
    | succ bound ih =>
      rw [BitVec.cpopNatRec_succ, ih, List.range_succ, List.filter_append, List.length_append]
      cases found : mask.getLsbD bound <;> simp [found]
      omega
  rw [BitVec.toNat_cpop, upTo, Nat.zero_add, setBits]

/-- A mask takes its bits away from the free ones it is part of. -/
theorem length_setBits_add {free mask : BitVec w}
    (part : ∀ bit, mask.getLsbD bit = true → free.getLsbD bit = true) :
    (setBits mask).length + (setBits (free &&& ~~~mask)).length = (setBits free).length := by
  have parts := (List.filter_append_perm (fun bit => mask.getLsbD bit) (setBits free)).length_eq
  rw [List.length_append] at parts
  rw [← parts]
  congr 2
  · rw [setBits, setBits, List.filter_filter]
    apply List.filter_congr
    intro bit _
    cases used : mask.getLsbD bit with
    | false => simp
    | true => simp [part bit used]
  · rw [setBits, setBits, List.filter_filter]
    apply List.filter_congr
    intro bit _
    rw [getLsbD_and_not, Bool.and_comm]

end Bits

namespace DecisionNode

/-- The instructions that end somewhere below a node, at a leaf or in a reported group. -/
def members (node : DecisionNode) : List Nat := node.leaves ++ node.ambiguities.flatten

/-- A way down from one node to another: the masks of the tables on it, the topmost first, each with
the slot that the way goes through. -/
inductive Leads : DecisionNode → List (Word × Nat) → DecisionNode → Prop where
  | here {node : DecisionNode} : Leads node [] node
  | down {mask : Word} {slots : Array DecisionNode} {slot : Nat} {child node : DecisionNode}
      {way : List (Word × Nat)} (inside : slots[slot]? = some child)
      (onward : Leads child way node) : Leads (.table mask slots) ((mask, slot) :: way) node

theorem getElem?_slots_build {free : Word} {candidates : List Candidate} {slot : Nat}
    {node : DecisionNode}
    (inside : ((Array.range
      (2 ^ (Bits.setBits (Candidate.sharedMask free candidates)).length)).map
        (child free candidates))[slot]? = some node) :
    node = child free candidates slot :=
  eq_of_getElem?_map_range inside

/-- A table is built from two or more candidates that share a free bit. -/
theorem eq_of_build_eq_table {free mask : Word} {candidates : List Candidate}
    {slots : Array DecisionNode} (built : build free candidates = .table mask slots) :
    2 ≤ candidates.length ∧ Candidate.sharedMask free candidates ≠ 0#16 ∧
      mask = Candidate.sharedMask free candidates ∧
      slots = (Array.range (2 ^ (Bits.setBits mask).length)).map (child free candidates) := by
  match candidates with
  | [] =>
    rw [build_nil] at built
    cases built
  | [only] =>
    rw [build_singleton] at built
    cases built
  | first :: second :: rest =>
    have several : 2 ≤ (first :: second :: rest).length := by simp
    by_cases shared : Candidate.sharedMask free (first :: second :: rest) = 0#16
    · rw [build_of_not_shared several shared] at built
      cases built
    · rw [build_of_shared several shared] at built
      obtain ⟨rfl, rfl⟩ := DecisionNode.table.inj built
      exact ⟨several, shared, rfl, rfl⟩

theorem perm_members_build (free : Word) (candidates : List Candidate) :
    (build free candidates).members.Perm (candidates.map (·.index)) :=
  perm_leaves_ambiguities free candidates

/-- Where a way leads to, some of the candidates are left, and none of the bits that the tables on
it have used. -/
theorem exists_build_of_leads {free : Word} {candidates : List Candidate}
    {way : List (Word × Nat)} {node : DecisionNode}
    (leads : Leads (build free candidates) way node) :
    ∃ left part, node = build left part ∧
      (∀ bit, left.getLsbD bit = true → free.getLsbD bit = true) ∧
      part.Sublist candidates ∧
      ∀ step ∈ way, step.1 &&& left = 0#16 := by
  induction free, candidates using build_induction generalizing way node with
  | nothing free =>
    rw [build_nil] at leads
    cases leads
    exact ⟨free, [], (build_nil free).symm, fun _ kept => kept, .refl _, by simp⟩
  | single free only =>
    rw [build_singleton] at leads
    cases leads
    exact ⟨free, [only], (build_singleton free only).symm, fun _ kept => kept, .refl _, by simp⟩
  | apart free candidates several apart =>
    rw [build_of_not_shared several apart] at leads
    cases leads
    exact ⟨free, candidates, (build_of_not_shared several apart).symm, fun _ kept => kept,
      .refl _, by simp⟩
  | table free candidates several shared ih =>
    rw [build_of_shared several shared] at leads
    cases leads with
    | here =>
      exact ⟨free, candidates, (build_of_shared several shared).symm, fun _ kept => kept,
        .refl _, by simp⟩
    | down inside onward =>
      rw [getElem?_slots_build inside] at onward
      obtain ⟨left, part, built, below, among, unused⟩ := ih _ onward
      refine ⟨left, part, built, fun bit kept => ?_, among.trans List.filter_sublist, ?_⟩
      · have free := below bit kept
        rw [Candidate.getLsbD_unused, Bool.and_eq_true] at free
        exact free.1
      · intro step member
        rcases List.mem_cons.mp member with rfl | later
        · apply BitVec.eq_of_getLsbD_eq
          intro bit _
          cases kept : left.getLsbD bit with
          | false => simp [kept]
          | true =>
            have free := below bit kept
            rw [Candidate.getLsbD_unused, Bool.and_eq_true, Bool.not_eq_true'] at free
            simp [free.2]
        · exact unused step later

/-- No way down passes more tables than there are free bits. -/
theorem depth_build_le (free : Word) (candidates : List Candidate) :
    (build free candidates).depth ≤ (Bits.setBits free).length := by
  induction free, candidates using build_induction with
  | nothing free => simp [build_nil, depth]
  | single free only => simp [build_singleton, depth]
  | apart free candidates several apart => simp [build_of_not_shared several apart, depth]
  | table free candidates several shared ih =>
    have part (bit : Nat) (used : (Candidate.sharedMask free candidates).getLsbD bit = true) :
        free.getLsbD bit = true := by
      rw [Candidate.getLsbD_sharedMask, Bool.and_eq_true] at used
      exact used.1
    have split := Bits.length_setBits_add part
    have used : 0 < (Bits.setBits (Candidate.sharedMask free candidates)).length := by
      refine List.length_pos_iff.mpr fun none => shared ?_
      apply BitVec.eq_of_getLsbD_eq
      intro bit _
      cases one : (Candidate.sharedMask free candidates).getLsbD bit with
      | false => simp
      | true =>
        have listed := Bits.mem_setBits.mpr one
        rw [none] at listed
        cases listed
    rw [build_of_shared several shared, depth]
    cases deepest : (Array.map depth ((Array.range (2 ^ (Bits.setBits
        (Candidate.sharedMask free candidates)).length)).map
          (child free candidates))).toList.max? with
    | none =>
      rw [Option.getD_none]
      omega
    | some below =>
      have member := (List.max?_eq_some_iff.mp deepest).1
      simp only [Array.toList_map, Array.toList_range, List.map_map, List.mem_map] at member
      obtain ⟨slot, -, rfl⟩ := member
      have bound := ih slot
      rw [Option.getD_some]
      simp only [Function.comp_apply, child, Candidate.unused] at bound split ⊢
      omega

/-- A word takes in every table the slot that it names, until there is no table. -/
theorem exists_leads_of_lookup (word free : Word) (candidates : List Candidate) :
    ∃ way node, Leads (build free candidates) way node ∧
      (∀ step ∈ way, step.2 = Bits.gather word step.1) ∧
      (∀ mask slots, node ≠ .table mask slots) ∧
      (build free candidates).lookup word = node.lookup word := by
  induction free, candidates using build_induction with
  | nothing free =>
    rw [build_nil]
    exact ⟨[], .empty, .here, by simp, nofun, rfl⟩
  | single free only =>
    rw [build_singleton]
    exact ⟨[], .leaf only.index, .here, by simp, nofun, rfl⟩
  | apart free candidates several apart =>
    rw [build_of_not_shared several apart]
    exact ⟨[], .ambiguous _, .here, by simp, nofun, rfl⟩
  | table free candidates several shared ih =>
    obtain ⟨way, node, leads, named, last, same⟩ :=
      ih (Bits.gather word (Candidate.sharedMask free candidates))
    refine ⟨(Candidate.sharedMask free candidates,
      Bits.gather word (Candidate.sharedMask free candidates)) :: way, node, ?_, ?_, last, ?_⟩
    · rw [build_of_shared several shared]
      refine .down ?_ leads
      have inside := Bits.gather_lt word (Candidate.sharedMask free candidates)
      simp [inside, child]
    · intro step member
      rcases List.mem_cons.mp member with rfl | later
      · rfl
      · exact named step later
    · rw [lookup_build_of_shared several shared]
      exact same

end DecisionNode

namespace DecisionTree

/-- What holds of a table that stands behind a way down from the root. -/
structure TableFits (instructions : List Instruction) (way : List (Word × Nat)) (mask : Word)
    (slots : Array DecisionNode) : Prop where
  looks : mask ≠ 0#16
  fresh : ∀ step ∈ way, step.1 &&& mask = 0#16
  size : slots.size = 2 ^ mask.cpop.toNat
  indexed : ∀ word : Word, Bits.gather word mask < slots.size
  placed : ∀ slot child, slots[slot]? = some child → ∀ index ∈ child.members,
    ∃ instr, instructions[index]? = some instr ∧ mask &&& instr.firstWordMask = mask ∧
      Bits.gather instr.firstWordValue mask = slot
  distinct : (DecisionNode.table mask slots).members.Nodup
  several : 2 ≤ (DecisionNode.table mask slots).members.length

variable {instructions : List Instruction}

theorem tableFits_of_leads {way : List (Word × Nat)} {mask : Word} {slots : Array DecisionNode}
    (leads : (build instructions).root.Leads way (.table mask slots)) :
    TableFits instructions way mask slots := by
  obtain ⟨left, part, built, -, among, unused⟩ := DecisionNode.exists_build_of_leads leads
  obtain ⟨several, shared, rfl, rfl⟩ := DecisionNode.eq_of_build_eq_table built.symm
  have members := DecisionNode.perm_members_build left part
  rw [← built] at members
  have once : (part.map (·.index)).Nodup := by
    refine (among.map (·.index)).nodup ?_
    rw [Candidate.map_index_ofInstructions]
    exact List.nodup_range
  constructor
  · exact shared
  · intro step member
    apply BitVec.eq_of_getLsbD_eq
    intro bit _
    have free := congrArg (fun word => word.getLsbD bit) (unused step member)
    rw [BitVec.getLsbD_and, Candidate.getLsbD_sharedMask]
    cases used : step.1.getLsbD bit with
    | false => simp
    | true =>
      have taken : left.getLsbD bit = false := by simpa [used] using free
      simp [taken]
  · rw [Array.size_map, Array.size_range, Bits.length_setBits]
  · intro word
    rw [Array.size_map, Array.size_range]
    exact Bits.gather_lt word _
  · intro slot child found index below
    rw [DecisionNode.getElem?_slots_build found] at below
    obtain ⟨candidate, inSlot, rfl⟩ :=
      List.mem_map.mp ((DecisionNode.perm_members_build _ _).mem_iff.mp below)
    obtain ⟨member, slot⟩ := Candidate.mem_inSlot.mp inSlot
    obtain ⟨instr, found, same⟩ := Candidate.mem_ofInstructions.mp (among.subset member)
    have mask : candidate.mask = instr.firstWordMask := by rw [same]
    have value : candidate.value = instr.firstWordValue := by rw [same]
    refine ⟨instr, found, ?_, value ▸ slot⟩
    apply BitVec.eq_of_getLsbD_eq
    intro bit _
    rw [BitVec.getLsbD_and, ← mask]
    cases shared : (Candidate.sharedMask left part).getLsbD bit with
    | false => simp
    | true => simp [Candidate.getLsbD_mask_of_sharedMask shared member]
  · exact members.nodup_iff.mpr once
  · rw [members.length_eq, List.length_map]
    exact several

/-- Every table of a tree fits its place, every instruction ends in exactly one leaf or reported
group, and a word finds its way to a leaf or to nothing within the slots and the instructions. -/
theorem tables_of_build (instructions : List Instruction) :
    (∀ way mask slots, (build instructions).root.Leads way (.table mask slots) →
      TableFits instructions way mask slots) ∧
    (build instructions).root.members.Perm (List.range instructions.length) ∧
    (build instructions).depth ≤ 16 ∧
    ∀ word, ∃ way node, (build instructions).root.Leads way node ∧
      (∀ step ∈ way, step.2 = Bits.gather word step.1) ∧
      ((∃ index, node = .leaf index ∧ index < instructions.length ∧
          (build instructions).lookup word = some index) ∨
        ((node = .empty ∨ ∃ group, node = .ambiguous group) ∧
          (build instructions).lookup word = none)) := by
  have members : (build instructions).root.members.Perm (List.range instructions.length) := by
    rw [← Candidate.map_index_ofInstructions]
    exact DecisionNode.perm_members_build (BitVec.allOnes 16) _
  refine ⟨fun way mask slots leads => tableFits_of_leads leads, members, ?_, fun word => ?_⟩
  · exact DecisionNode.depth_build_le (BitVec.allOnes 16) _
  · obtain ⟨way, node, leads, named, last, same⟩ :=
      DecisionNode.exists_leads_of_lookup word (BitVec.allOnes 16)
        (Candidate.ofInstructions instructions)
    refine ⟨way, node, leads, named, ?_⟩
    change (build instructions).lookup word = node.lookup word at same
    rw [same]
    cases node with
    | empty => exact .inr ⟨.inl rfl, DecisionNode.lookup_empty word⟩
    | ambiguous group => exact .inr ⟨.inr ⟨group, rfl⟩, DecisionNode.lookup_ambiguous word group⟩
    | table mask slots => exact absurd rfl (last mask slots)
    | leaf index =>
      have hit := DecisionNode.lookup_leaf word index
      have leaf := DecisionNode.mem_leaves_of_lookup (BitVec.allOnes 16) _ (same.trans hit)
      have inside := members.mem_iff.mp (List.mem_append_left _ leaf)
      exact .inl ⟨index, rfl, List.mem_range.mp inside, hit⟩

/-- Two instructions that the first table leaves together, and a third that it sets apart. -/
def layered : List Instruction :=
  [⟨"A", "A", [], 0xC000#32, 0x0000#32, .bits16, .line "layered" 1⟩,
    ⟨"B", "B", [], 0xE000#32, 0x4000#32, .bits16, .line "layered" 2⟩,
    ⟨"C", "C", [], 0xE000#32, 0x6000#32, .bits16, .line "layered" 3⟩]

theorem tables_of_build_layered :
    (build layered).root.Leads [(0xC000#16, 1)] (.table 0x2000#16 #[.leaf 1, .leaf 2]) ∧
      TableFits layered [(0xC000#16, 1)] 0x2000#16 #[.leaf 1, .leaf 2] := by
  have root : (build layered).root = .table 0xC000#16
      #[.leaf 0, .table 0x2000#16 #[.leaf 1, .leaf 2], .empty, .empty] := by
    cbv
  have leads : (build layered).root.Leads [(0xC000#16, 1)]
      (.table 0x2000#16 #[.leaf 1, .leaf 2]) := by
    rw [root]
    exact .down rfl .here
  exact ⟨leads, (tables_of_build layered).1 _ _ _ leads⟩

end DecisionTree

end DspIsa
