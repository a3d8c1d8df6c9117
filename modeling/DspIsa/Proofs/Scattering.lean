import DspIsa.Proofs.Descent

/-! Gathering and scattering. The bits of a packed number belong to the positions of a mask in their
order, so each of the two undoes the other as far as the mask goes. -/
namespace DspIsa.Bits

variable {w : Nat}

theorem nodup_setBits (mask : BitVec w) : (setBits mask).Nodup := List.nodup_range.filter _

/-- Nothing is scattered to a position that is not listed. -/
theorem getLsbD_scatterAt_of_notMem {positions : List Nat} {bit : Nat} (missing : bit ∉ positions)
    (packed : Nat) : (scatterAt w positions packed).getLsbD bit = false := by
  induction positions generalizing packed with
  | nil => simp [scatterAt]
  | cons first rest ih =>
    obtain ⟨other, later⟩ := not_or.mp (List.mem_cons.not.mp missing)
    rw [scatterAt, BitVec.getLsbD_or, ih later]
    split <;> simp [BitVec.getLsbD_twoPow, Ne.symm other]

/-- Each listed position shows the bit of the packed number that has its place in the list. -/
theorem getLsbD_scatterAt {positions : List Nat} (distinct : positions.Nodup) {slot bit : Nat}
    (found : positions[slot]? = some bit) (inside : bit < w) (packed : Nat) :
    (scatterAt w positions packed).getLsbD bit = packed.testBit slot := by
  induction positions generalizing slot packed with
  | nil => simp at found
  | cons first rest ih =>
    obtain ⟨apart, others⟩ := List.nodup_cons.mp distinct
    rw [scatterAt, BitVec.getLsbD_or]
    cases slot with
    | zero =>
      obtain rfl : first = bit := by simpa using found
      rw [getLsbD_scatterAt_of_notMem apart, Bool.or_false, Nat.testBit_zero]
      split <;> simp [*]
    | succ slot =>
      have later : rest[slot]? = some bit := by simpa using found
      have other : first ≠ bit := fun same => apart (same ▸ List.mem_of_getElem? later)
      rw [ih others later, Nat.testBit_succ]
      split <;> simp [BitVec.getLsbD_twoPow, other]

section Masks

variable {value mask : BitVec w} {slot bit : Nat}

theorem getLsbD_of_getElem?_setBits (found : (setBits mask)[slot]? = some bit) :
    mask.getLsbD bit = true := mem_setBits.mp (List.mem_of_getElem? found)

theorem getLsbD_scatter (found : (setBits mask)[slot]? = some bit) (packed : Nat) :
    (scatter packed mask).getLsbD bit = packed.testBit slot :=
  getLsbD_scatterAt (nodup_setBits mask) found
    (BitVec.lt_of_getLsbD (getLsbD_of_getElem?_setBits found)) packed

theorem getLsbD_scatter_of_unselected (unselected : mask.getLsbD bit = false) (packed : Nat) :
    (scatter packed mask).getLsbD bit = false := by
  refine getLsbD_scatterAt_of_notMem (fun member => ?_) packed
  rw [mem_setBits, unselected] at member
  cases member

/-- What is gathered from a value and scattered again is the value under the mask. -/
theorem scatter_gather (value mask : BitVec w) :
    scatter (gather value mask) mask = value &&& mask := by
  apply BitVec.eq_of_getLsbD_eq
  intro bit _
  rw [BitVec.getLsbD_and]
  cases selected : mask.getLsbD bit with
  | false => rw [getLsbD_scatter_of_unselected selected, Bool.and_false]
  | true =>
    obtain ⟨slot, found⟩ := List.mem_iff_getElem?.mp (mem_setBits.mpr selected)
    rw [getLsbD_scatter found, gather, testBit_gatherAt, found, Option.any_some, Bool.and_true]

/-- What is scattered and gathered again are the low bits, as many as the mask has. -/
theorem gather_scatter (packed : Nat) (mask : BitVec w) :
    gather (scatter packed mask) mask = packed % 2 ^ (setBits mask).length := by
  apply Nat.eq_of_testBit_eq
  intro slot
  rw [gather, testBit_gatherAt, Nat.testBit_mod_two_pow]
  cases found : (setBits mask)[slot]? with
  | none =>
    have past := List.getElem?_eq_none_iff.mp found
    simp [Nat.not_lt.mpr past]
  | some bit =>
    have inside : slot < (setBits mask).length := (List.getElem?_eq_some_iff.mp found).1
    rw [Option.any_some, getLsbD_scatter found, decide_eq_true inside, Bool.true_and]

end Masks

section Widening

variable {wide : Nat} (wider : w ≤ wide)

include wider

theorem setBits_setWidth (mask : BitVec w) : setBits (mask.setWidth wide) = setBits mask := by
  obtain ⟨more, rfl⟩ := Nat.exists_eq_add_of_le wider
  have beyond : ((List.range more).map (w + ·)).filter (fun bit => mask.getLsbD bit) = [] := by
    simp [List.filter_eq_nil_iff]
  simp only [setBits, getLsbD_setWidth_of_le wider]
  rw [List.range_add, List.filter_append, beyond, List.append_nil]

/-- A slot number does not depend on how wide the value and the mask are taken. -/
theorem gather_setWidth (value mask : BitVec w) :
    gather (value.setWidth wide) (mask.setWidth wide) = gather value mask := by
  simp only [gather, gatherAt, setBits_setWidth wider, getLsbD_setWidth_of_le wider]

end Widening

/-- Gathering and scattering undo one another on every mask: a value comes back as far as the mask
selects it, and a packed number as far as the mask has bits. So a gathered number has no more bits
than the mask, and tells values apart that differ under the mask, and only those. The slot of a word
in a table of a tree is gathered in this way and lies within the table. -/
theorem scatter_gather_inverse (value other mask : Code) :
    scatter (gather value mask) mask = value &&& mask ∧
    gather (scatter value.toNat mask) mask = value.toNat % 2 ^ mask.cpop.toNat ∧
    gather value mask < 2 ^ mask.cpop.toNat ∧
    (gather value mask = gather other mask ↔ value &&& mask = other &&& mask) ∧
    ∀ instructions way table slots,
      (DecisionTree.build instructions).root.Leads way (.table table slots) → ∀ word : Word,
        gather word table = gather (word.setWidth 32) (table.setWidth 32) ∧
          gather (word.setWidth 32) (table.setWidth 32) < slots.size := by
  rw [← length_setBits]
  refine ⟨scatter_gather value mask, gather_scatter value.toNat mask, gather_lt value mask,
    gather_eq_iff, fun instructions way table slots leads word => ?_⟩
  rw [gather_setWidth (by decide)]
  exact ⟨rfl, (DecisionTree.tableFits_of_leads leads).indexed word⟩

/-- A mask with gaps, and a table on the second level of a tree. -/
theorem scatter_gather_inverse_layered :
    scatter (gather 0xDEADBEEF#32 0x80F00011#32) 0x80F00011#32 = 0x80A00001#32 ∧
      gather (scatter (0xABC5#32).toNat 0x80F00011#32) 0x80F00011#32 = 0x45 ∧
      (DecisionTree.build DecisionTree.layered).root.Leads [(0xC000#16, 1)]
        (.table 0x2000#16 #[.leaf 1, .leaf 2]) ∧
      gather (BitVec.setWidth 32 0x6123#16) (BitVec.setWidth 32 0x2000#16) < 2 := by
  have root : (DecisionTree.build DecisionTree.layered).root = .table 0xC000#16
      #[.leaf 0, .table 0x2000#16 #[.leaf 1, .leaf 2], .empty, .empty] := by
    cbv
  have leads : (DecisionTree.build DecisionTree.layered).root.Leads [(0xC000#16, 1)]
      (.table 0x2000#16 #[.leaf 1, .leaf 2]) := by
    rw [root]
    exact .down rfl .here
  obtain ⟨restored, kept, -, -, slots⟩ :=
    scatter_gather_inverse 0xDEADBEEF#32 0xABC5#32 0x80F00011#32
  obtain ⟨-, cut, -⟩ := scatter_gather_inverse 0xABC5#32 0#32 0x80F00011#32
  exact ⟨restored.trans (by decide), cut.trans (by decide), leads,
    (slots _ _ _ _ leads 0x6123#16).2⟩

end DspIsa.Bits
