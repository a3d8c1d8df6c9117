import DspIsa.Word
import Mathlib.Algebra.Group.Nat.Defs

/-! Laws of the bit operations. Gathered numbers agree exactly when the values agree under the
mask, and every cut or shifted code is described by its single bits. -/
namespace DspIsa.Bits

variable {w : Nat}

/-- Agreement on every bit that a mask selects. -/
theorem and_eq_and_iff {value other mask : BitVec w} :
    value &&& mask = other &&& mask ↔
      ∀ bit, mask.getLsbD bit = true → value.getLsbD bit = other.getLsbD bit := by
  constructor
  · intro same bit selected
    have kept := congrArg (fun word => word.getLsbD bit) same
    simpa [selected] using kept
  · intro agree
    apply BitVec.eq_of_getLsbD_eq
    intro bit inside
    cases selected : mask.getLsbD bit with
    | false => simp [selected]
    | true => simp [selected, agree bit selected]

theorem getLsbD_and_not (value mask : BitVec w) (bit : Nat) :
    (value &&& ~~~mask).getLsbD bit = (value.getLsbD bit && !mask.getLsbD bit) := by
  rw [BitVec.getLsbD_and, BitVec.getLsbD_not]
  cases selected : value.getLsbD bit with
  | false => simp
  | true => simp [BitVec.lt_of_getLsbD selected]

theorem getLsbD_setWidth_of_le {wide : Nat} (wider : w ≤ wide) (value : BitVec w) (bit : Nat) :
    (value.setWidth wide).getLsbD bit = value.getLsbD bit := by
  rw [BitVec.getLsbD_setWidth]
  by_cases inside : bit < wide
  · rw [decide_eq_true inside, Bool.true_and]
  · rw [BitVec.getLsbD_of_ge value bit (by omega), Bool.and_false]

theorem mem_setBits {mask : BitVec w} {bit : Nat} :
    bit ∈ setBits mask ↔ mask.getLsbD bit = true := by
  rw [setBits, List.mem_filter, List.mem_range]
  exact ⟨And.right, fun selected => ⟨BitVec.lt_of_getLsbD selected, selected⟩⟩

theorem gatherAt_cons (value : BitVec w) (bit : Nat) (rest : List Nat) :
    gatherAt value (bit :: rest) = 2 * gatherAt value rest + (value.getLsbD bit).toNat := rfl

/-- A gathered number shows the value at the positions, the first position lowest. -/
theorem testBit_gatherAt (value : BitVec w) (positions : List Nat) (slot : Nat) :
    (gatherAt value positions).testBit slot =
      (positions[slot]?.any fun bit => value.getLsbD bit) := by
  induction positions generalizing slot with
  | nil => simp [gatherAt]
  | cons bit rest ih =>
    rw [gatherAt_cons]
    cases slot with
    | zero => cases digit : value.getLsbD bit <;> simp [digit]
    | succ slot =>
      have half : (2 * gatherAt value rest + (value.getLsbD bit).toNat) / 2 =
          gatherAt value rest := by
        have digit := (value.getLsbD bit).toNat_lt
        omega
      rw [Nat.testBit_succ, half, ih, List.getElem?_cons_succ]

theorem gatherAt_lt (value : BitVec w) (positions : List Nat) :
    gatherAt value positions < 2 ^ positions.length := by
  induction positions with
  | nil => simp [gatherAt]
  | cons bit rest ih =>
    have digit := (value.getLsbD bit).toNat_lt
    simp only [gatherAt, List.foldr_cons, List.length_cons, Nat.pow_succ] at ih ⊢
    omega

theorem gatherAt_eq_iff (value other : BitVec w) (positions : List Nat) :
    gatherAt value positions = gatherAt other positions ↔
      ∀ bit ∈ positions, value.getLsbD bit = other.getLsbD bit := by
  induction positions with
  | nil => simp [gatherAt]
  | cons bit rest ih =>
    have split : gatherAt value (bit :: rest) = gatherAt other (bit :: rest) ↔
        value.getLsbD bit = other.getLsbD bit ∧ gatherAt value rest = gatherAt other rest := by
      simp only [gatherAt, List.foldr_cons]
      cases value.getLsbD bit <;> cases other.getLsbD bit <;> simp <;> omega
    rw [split, ih, List.forall_mem_cons]

/-- A slot number lies within its table. -/
theorem gather_lt (value mask : BitVec w) : gather value mask < 2 ^ (setBits mask).length :=
  gatherAt_lt value (setBits mask)

/-- Two values have one slot exactly when they agree under the mask. -/
theorem gather_eq_iff {value other mask : BitVec w} :
    gather value mask = gather other mask ↔ value &&& mask = other &&& mask := by
  rw [gather, gather, gatherAt_eq_iff, and_eq_and_iff]
  simp only [mem_setBits]

theorem getLsbD_lowMask (width bit : Nat) :
    (lowMask width).getLsbD bit = (decide (bit < 32) && decide (bit < width)) := by
  unfold lowMask
  split
  · rename_i wide
    rw [BitVec.getLsbD_allOnes]
    by_cases inside : bit < 32
    · have narrow : bit < width := by omega
      simp [inside, narrow]
    · simp [inside]
  · rename_i narrow
    have shifted : (1#32 <<< width : Code) = BitVec.twoPow 32 width := by
      simp [BitVec.twoPow]
    have ones : (BitVec.twoPow 32 width - 1#32).toNat = 2 ^ width - 1 := by
      have small : 2 ^ width < 2 ^ 32 := Nat.pow_lt_pow_right (by decide) (by omega)
      have positive : 0 < 2 ^ width := Nat.two_pow_pos width
      simp only [BitVec.toNat_sub, BitVec.toNat_twoPow, BitVec.toNat_ofNat]
      omega
    rw [shifted, BitVec.getLsbD, ones, Nat.testBit_two_pow_sub_one]
    by_cases below : bit < width
    · have inside : bit < 32 := by omega
      simp [below, inside]
    · simp [below]

theorem getLsbD_rangeMask (low high bit : Nat) :
    (rangeMask low high).getLsbD bit =
      (decide (bit < 32) && decide (low ≤ bit) && decide (bit - low < high - low + 1)) := by
  rw [rangeMask, BitVec.getLsbD_shiftLeft, getLsbD_lowMask]
  by_cases inside : bit < 32
  · by_cases above : low ≤ bit
    · have offset : bit - low < 32 := by omega
      simp [inside, above, offset, Nat.not_lt.mpr above]
    · simp [inside, above, Nat.lt_of_not_le above]
  · simp [inside]

/-- The bits of a range, read from bit zero upwards. -/
theorem getLsbD_extract (code : Code) (low high bit : Nat) :
    (extract code low high).getLsbD bit =
      (decide (bit < high - low + 1) && code.getLsbD (low + bit)) := by
  rw [extract, BitVec.getLsbD_ushiftRight, BitVec.getLsbD_and, getLsbD_rangeMask]
  by_cases inside : low + bit < 32
  · simp [inside, Bool.and_comm]
  · simp [inside, BitVec.getLsbD_of_ge code (low + bit) (Nat.le_of_not_lt inside)]

end DspIsa.Bits
