import DspIsa.OperandSource
import DspIsa.Proofs.Layout

/-! Encodings bit by bit. An encoding shows the fixed bits of its instruction and, at the place of
every operand, the low bits of the operand's value; a source reads back what lies at that place. -/
namespace DspIsa

/-- The bits of the instruction are laid out as a pattern lays them out. -/
abbrev Instruction.WellLaid (instr : Instruction) : Prop :=
  DspIsa.WellLaid instr.width instr.fixedMask instr.fixedValue instr.operands

namespace Operand

/-- The bit lies in the operand's range. -/
def Covers (operand : Operand) (bit : Nat) : Prop := operand.low ≤ bit ∧ bit ≤ operand.high

theorem getLsbD_place {operand : Operand} (ordered : operand.low ≤ operand.high) (value : Code)
    (bit : Nat) :
    (operand.place value).getLsbD bit =
      (decide (bit < 32) && decide (operand.low ≤ bit) && decide (bit ≤ operand.high) &&
        value.getLsbD (bit - operand.low)) := by
  rw [place, BitVec.getLsbD_shiftLeft, BitVec.getLsbD_and, Bits.getLsbD_lowMask, width]
  by_cases inside : bit < 32
  · by_cases above : operand.low ≤ bit
    · by_cases below : bit ≤ operand.high
      · have offset : bit - operand.low < 32 := by omega
        have within : bit - operand.low < operand.high - operand.low + 1 := by omega
        simp [inside, above, below, offset, within]
      · have past : ¬ bit - operand.low < operand.high - operand.low + 1 := by omega
        simp [below, past]
    · have under : bit < operand.low := by omega
      simp [above, under]
  · simp [inside]

theorem getLsbD_placeAll_eq_false {operands : List Operand} {bit : Nat}
    (ordered : ∀ operand ∈ operands, operand.low ≤ operand.high)
    (outside : ∀ operand ∈ operands, ¬ operand.Covers bit) (values : List Code) :
    (placeAll operands values).getLsbD bit = false := by
  induction operands generalizing values with
  | nil => simp [placeAll]
  | cons operand rest ih =>
    rw [placeAll, BitVec.getLsbD_or, getLsbD_place (ordered operand (by simp)),
      ih (fun other member => ordered other (by simp [member]))
        (fun other member => outside other (by simp [member]))]
    have missed := outside operand (by simp)
    by_cases above : operand.low ≤ bit
    · have past : ¬ bit ≤ operand.high := fun below => missed ⟨above, below⟩
      simp [past]
    · simp [above]

/-- A bit of an operand shows the value of that operand and of no other. -/
theorem getLsbD_placeAll {operands : List Operand} {index bit : Nat} {operand : Operand}
    (ordered : ∀ operand ∈ operands, operand.low ≤ operand.high)
    (ascending : operands.Pairwise fun first second => first.high < second.low)
    (found : operands[index]? = some operand) (covers : operand.Covers bit)
    (values : List Code) :
    (placeAll operands values).getLsbD bit =
      (decide (bit < 32) && (values.getD index 0#32).getLsbD (bit - operand.low)) := by
  induction operands generalizing index values with
  | nil => simp at found
  | cons first rest ih =>
    have restOrdered : ∀ other ∈ rest, other.low ≤ other.high :=
      fun other member => ordered other (by simp [member])
    obtain ⟨before, restAscending⟩ := List.pairwise_cons.mp ascending
    rw [placeAll, BitVec.getLsbD_or, getLsbD_place (ordered first (by simp))]
    cases index with
    | zero =>
      have same : first = operand := by simpa using found
      subst same
      have nothing : ∀ other ∈ rest, ¬ other.Covers bit := by
        intro other member inside
        have later := before other member
        have lower := inside.1
        have upper := covers.2
        omega
      rw [getLsbD_placeAll_eq_false restOrdered nothing]
      cases values <;> simp [covers.1, covers.2]
    | succ index =>
      have found : rest[index]? = some operand := by simpa using found
      have later := before operand (List.mem_of_getElem? found)
      have past : ¬ bit ≤ first.high := by
        have lower := covers.1
        omega
      rw [ih restOrdered restAscending found]
      cases values <;> simp [past]

end Operand

theorem getLsbD_lowByte (word : Word) (bit : Nat) :
    (word &&& 0xFF#16).getLsbD bit = (decide (bit < 8) && word.getLsbD bit) := by
  have mask : 0xFF#16 = (BitVec.allOnes 8).setWidth 16 := by decide
  rw [mask, BitVec.getLsbD_and, BitVec.getLsbD_setWidth, BitVec.getLsbD_allOnes]
  by_cases inside : bit < 8
  · have within : bit < 16 := by omega
    simp [inside, within]
  · simp [inside]

namespace Instruction

variable {instr : Instruction}

/-- An encoding shows the fixed bits of its instruction. -/
theorem getLsbD_encode_of_fixed (laid : instr.WellLaid) (values : List Code) {bit : Nat}
    (fixed : instr.fixedMask.getLsbD bit = true) :
    (instr.encode values).getLsbD bit = instr.fixedValue.getLsbD bit := by
  have outside : ∀ operand ∈ instr.operands, ¬ operand.Covers bit := by
    intro operand member covers
    have separate := laid.separate operand member bit covers.1 covers.2
    rw [fixed] at separate
    cases separate
  rw [encode, BitVec.getLsbD_or, Operand.getLsbD_placeAll_eq_false
    (fun operand member => (laid.ordered operand member).1) outside, Bool.or_false]

theorem getLsbD_encode_of_covers (laid : instr.WellLaid) (values : List Code) {index bit : Nat}
    {operand : Operand} (found : instr.operands[index]? = some operand)
    (covers : operand.Covers bit) :
    (instr.encode values).getLsbD bit =
      (values.getD index 0#32).getLsbD (bit - operand.low) := by
  have member := List.mem_of_getElem? found
  have zero := laid.getLsbD_value_eq_false (laid.separate operand member bit covers.1 covers.2)
  have inside : bit < 32 := by
    have upper := covers.2
    have high := (laid.ordered operand member).2
    have whole := instr.width.bits_le
    omega
  rw [encode, BitVec.getLsbD_or, zero, Bool.false_or, Operand.getLsbD_placeAll
    (fun operand member => (laid.ordered operand member).1) laid.ascending found covers]
  simp [inside]

theorem getLsbD_encode_of_le (laid : instr.WellLaid) (values : List Code) {bit : Nat}
    (outside : instr.width.bits ≤ bit) : (instr.encode values).getLsbD bit = false := by
  have uncovered : ∀ operand ∈ instr.operands, ¬ operand.Covers bit := by
    intro operand member covers
    have upper := covers.2
    have high := (laid.ordered operand member).2
    omega
  have zero := laid.getLsbD_value_of_le outside
  rw [encode, BitVec.getLsbD_or, zero, Bool.false_or, Operand.getLsbD_placeAll_eq_false
    (fun operand member => (laid.ordered operand member).1) uncovered]

/-- An encoding is no wider than its instruction. -/
theorem encode_lt (laid : instr.WellLaid) (values : List Code) :
    (instr.encode values).toNat < 2 ^ instr.width.bits := by
  apply Nat.lt_pow_two_of_testBit
  intro bit outside
  exact getLsbD_encode_of_le laid values outside

theorem getLsbD_codeOf_bits32 (wide : instr.width = .bits32) (first second : Word) (bit : Nat) :
    (instr.codeOf first second).getLsbD bit =
      if bit < 16 then second.getLsbD bit else first.getLsbD (bit - 16) := by
  rw [codeOf, wide]
  dsimp only
  rw [BitVec.getLsbD_or, BitVec.getLsbD_shiftLeft, BitVec.getLsbD_setWidth,
    BitVec.getLsbD_setWidth]
  by_cases low : bit < 16
  · have inside : bit < 32 := by omega
    simp [low, inside]
  · rw [BitVec.getLsbD_of_ge second bit (Nat.le_of_not_lt low)]
    by_cases inside : bit < 32
    · have offset : bit - 16 < 32 := by omega
      simp [low, inside, offset]
    · rw [BitVec.getLsbD_of_ge first (bit - 16) (by omega)]
      simp [low]

theorem getLsbD_codeOf_bits16 (narrow : instr.width = .bits16) (first second : Word) (bit : Nat) :
    (instr.codeOf first second).getLsbD bit = first.getLsbD bit := by
  rw [codeOf, narrow]
  dsimp only
  rw [BitVec.getLsbD_setWidth]
  by_cases inside : bit < 32
  · simp [inside]
  · rw [BitVec.getLsbD_of_ge first bit (by omega), Bool.and_false]

theorem getLsbD_codeOf_bits8 (byte : instr.width = .bits8) (first second : Word) (bit : Nat) :
    (instr.codeOf first second).getLsbD bit = (decide (bit < 8) && first.getLsbD bit) := by
  rw [codeOf, byte]
  dsimp only
  rw [BitVec.getLsbD_setWidth, getLsbD_lowByte]
  by_cases inside : bit < 8
  · have within : bit < 32 := by omega
    simp [inside, within]
  · simp [inside]

/-- A code that is no wider than the instruction is what its two words hold. -/
theorem codeOf_splitWords (code : Code) (fits : code.toNat < 2 ^ instr.width.bits) :
    instr.codeOf (instr.splitWords code).1 (instr.splitWords code).2 = code := by
  have beyond (bit : Nat) (outside : instr.width.bits ≤ bit) : code.getLsbD bit = false :=
    Nat.testBit_lt_two_pow
      (Nat.lt_of_lt_of_le fits (Nat.pow_le_pow_right (by decide) outside))
  apply BitVec.eq_of_getLsbD_eq
  intro bit inside
  cases width : instr.width with
  | bits8 =>
    rw [getLsbD_codeOf_bits8 width, splitWords, width]
    by_cases below : bit < 8
    · have within : bit < 16 := by omega
      simp [below, within]
    · rw [beyond bit (by rw [width]; exact Nat.le_of_not_lt below)]
      simp [below]
  | bits16 =>
    rw [getLsbD_codeOf_bits16 width, splitWords, width]
    by_cases below : bit < 16
    · simp [below]
    · rw [beyond bit (by rw [width]; exact Nat.le_of_not_lt below)]
      simp [below]
  | bits32 =>
    rw [getLsbD_codeOf_bits32 width, splitWords, width]
    by_cases below : bit < 16
    · simp [below]
    · have high : bit - 16 < 16 := by omega
      have whole : 16 + (bit - 16) = bit := by omega
      simp [below, high, whole]

theorem splitWords_fst (code : Code) : (instr.splitWords code).1 = instr.firstWordOf code := by
  unfold splitWords firstWordOf
  split <;> rfl

/-- The fixed value is the code of its own two words. -/
theorem codeOf_fixedValue (laid : instr.WellLaid) :
    instr.codeOf instr.firstWordValue (instr.splitWords instr.fixedValue).2 =
      instr.fixedValue := by
  rw [firstWordValue, ← splitWords_fst]
  exact codeOf_splitWords instr.fixedValue laid.value_lt

/-- The first word carries the part of a code that the decision tree looks at. -/
theorem firstWordOf_codeOf (main : instr.width ≠ .bits8) (first second : Word) :
    instr.firstWordOf (instr.codeOf first second) = first := by
  apply BitVec.eq_of_getLsbD_eq
  intro bit inside
  cases width : instr.width with
  | bits8 => exact absurd width main
  | bits16 =>
    rw [firstWordOf, width]
    dsimp only
    rw [BitVec.getLsbD_setWidth, getLsbD_codeOf_bits16 width]
    simp [inside]
  | bits32 =>
    rw [firstWordOf, width]
    dsimp only
    rw [BitVec.getLsbD_setWidth, BitVec.getLsbD_ushiftRight, getLsbD_codeOf_bits32 width]
    simp [inside]

theorem firstWordOf_and (code other : Code) :
    instr.firstWordOf (code &&& other) = instr.firstWordOf code &&& instr.firstWordOf other := by
  unfold firstWordOf
  split <;> ext bit inside <;> simp

/-- A word that a main instruction matches agrees with its fixed first-word bits. -/
theorem agrees_of_isMatch (main : instr.width ≠ .bits8) {first second : Word}
    (matched : instr.isMatch first second = true) :
    first &&& instr.firstWordMask = instr.firstWordValue &&& instr.firstWordMask := by
  rw [isMatch, beq_iff_eq] at matched
  have shown := congrArg instr.firstWordOf matched
  rw [firstWordOf_and, firstWordOf_codeOf main] at shown
  have twice : instr.firstWordValue &&& instr.firstWordMask = instr.firstWordValue := by
    rw [firstWordValue, ← matched, firstWordOf_and, firstWordMask, BitVec.and_assoc,
      BitVec.and_self]
  rw [twice]
  exact shown

/-- A match is agreement on every fixed bit. -/
theorem isMatch_iff (laid : instr.WellLaid) {first second : Word} :
    instr.isMatch first second = true ↔ ∀ bit, instr.fixedMask.getLsbD bit = true →
      (instr.codeOf first second).getLsbD bit = instr.fixedValue.getLsbD bit := by
  rw [isMatch, beq_iff_eq, ← Bits.and_eq_and_iff, laid.value_and_mask]

/-- The words of an encoding match the instruction. -/
theorem isMatch_encode (laid : instr.WellLaid) (values : List Code) :
    instr.isMatch (instr.splitWords (instr.encode values)).1
      (instr.splitWords (instr.encode values)).2 = true := by
  apply (isMatch_iff laid).mpr
  intro bit fixed
  rw [codeOf_splitWords _ (encode_lt laid values)]
  exact getLsbD_encode_of_fixed laid values fixed

end Instruction

namespace OperandSource

variable {instr : Instruction} {operand : Operand} {source : OperandSource}

/-- What one input word holds fits in it. -/
theorem width_le_of_resolve (inside : operand.high < instr.width.bits)
    (resolved : resolve instr operand = .ok source) : operand.width ≤ 16 := by
  rw [Operand.width]
  cases width : instr.width with
  | bits8 =>
    rw [width] at inside
    change operand.high < 8 at inside
    omega
  | bits16 =>
    rw [width] at inside
    change operand.high < 16 at inside
    omega
  | bits32 =>
    rw [width] at inside
    change operand.high < 32 at inside
    simp only [resolve, width] at resolved
    split at resolved
    · omega
    split at resolved
    · omega
    split at resolved
    · omega
    · cases resolved

/-- A source reads the bits of its operand, wherever these bits are. -/
theorem read_eq_extract (resolved : resolve instr operand = .ok source) (first second : Word) :
    source.read first second =
      (Bits.extract (instr.codeOf first second) operand.low operand.high).setWidth 16 := by
  cases width : instr.width with
  | bits8 =>
    simp only [resolve, width] at resolved
    cases resolved
    simp only [read, Instruction.codeOf, width]
  | bits16 =>
    simp only [resolve, width] at resolved
    cases resolved
    simp only [read, Instruction.codeOf, width]
  | bits32 =>
    have widened (word : Word) (bit : Nat) : (word.setWidth 32).getLsbD bit = word.getLsbD bit :=
      Bits.getLsbD_setWidth_of_le (by decide) word bit
    apply BitVec.eq_of_getLsbD_eq
    intro bit inside
    rw [BitVec.getLsbD_setWidth, Bits.getLsbD_extract, Instruction.getLsbD_codeOf_bits32 width]
    simp only [resolve, width] at resolved
    split at resolved
    · rename_i high
      cases resolved
      have size : operand.high - 16 - (operand.low - 16) = operand.high - operand.low := by omega
      have place : operand.low + bit - 16 = operand.low - 16 + bit := by omega
      have upper : ¬ operand.low + bit < 16 := by omega
      rw [read, BitVec.getLsbD_setWidth, Bits.getLsbD_extract, widened, size, place, if_neg upper]
    split at resolved
    · rename_i whole
      cases resolved
      rw [read, whole.1, whole.2, Nat.zero_add, if_pos inside]
      simp [inside]
    split at resolved
    · rename_i below
      cases resolved
      rw [read, BitVec.getLsbD_setWidth, Bits.getLsbD_extract, widened]
      by_cases within : bit < operand.high - operand.low + 1
      · have lower : operand.low + bit < 16 := by omega
        rw [if_pos lower]
      · simp [within]
    · cases resolved

/-- A source shows as many bits of the code as its operand has. -/
theorem getLsbD_read (resolved : resolve instr operand = .ok source)
    (inside : operand.high < instr.width.bits) (first second : Word) (bit : Nat) :
    (source.read first second).getLsbD bit =
      (decide (bit < operand.width) &&
        (instr.codeOf first second).getLsbD (operand.low + bit)) := by
  have narrow := width_le_of_resolve inside resolved
  rw [read_eq_extract resolved, BitVec.getLsbD_setWidth, Bits.getLsbD_extract]
  rw [Operand.width] at narrow ⊢
  by_cases within : bit < operand.high - operand.low + 1
  · have short : bit < 16 := by omega
    rw [decide_eq_true short, Bool.true_and]
  · simp [within]

/-- Reading an operand back from an encoding gives its value, cut to the operand's width. -/
theorem read_encode (laid : instr.WellLaid) {index : Nat}
    (found : instr.operands[index]? = some operand) (resolved : resolve instr operand = .ok source)
    (values : List Code) :
    (source.read (instr.splitWords (instr.encode values)).1
      (instr.splitWords (instr.encode values)).2) =
        BitVec.ofNat 16 ((values.getD index 0#32).toNat % 2 ^ operand.width) := by
  obtain ⟨ordered, inside⟩ := laid.ordered operand (List.mem_of_getElem? found)
  apply BitVec.eq_of_getLsbD_eq
  intro bit narrow
  rw [getLsbD_read resolved inside, Instruction.codeOf_splitWords _
    (Instruction.encode_lt laid values), BitVec.getLsbD_ofNat, Nat.testBit_mod_two_pow]
  by_cases within : bit < operand.width
  · have covers : operand.Covers (operand.low + bit) := by
      rw [Operand.width] at within
      exact ⟨by omega, by omega⟩
    rw [Instruction.getLsbD_encode_of_covers laid values found covers]
    simp [within, narrow, BitVec.getLsbD]
  · simp [within]

end OperandSource

end DspIsa
