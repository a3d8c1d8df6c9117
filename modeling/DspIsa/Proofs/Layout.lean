import DspIsa.Pattern
import DspIsa.Proofs.Bits

/-! What reading a pattern guarantees about the bits of an encoding: fixed bits and operands lie
within its width, operands ascend, and no bit is both fixed and part of an operand. -/
namespace DspIsa

namespace Pattern

/-- The characters are given from bit zero upwards. -/
theorem getLsbD_bitsWhere (p : Char → Bool) (chars : List Char) (bit : Nat) :
    (bitsWhere p chars.reverse).getLsbD bit = (decide (bit < 32) && chars[bit]?.any p) := by
  induction chars generalizing bit with
  | nil => simp [bitsWhere]
  | cons c rest ih =>
    have step : bitsWhere p (c :: rest).reverse =
        (bitsWhere p rest.reverse <<< 1) ||| if p c then 1#32 else 0#32 := by
      simp [bitsWhere]
    rw [step, BitVec.getLsbD_or, BitVec.getLsbD_shiftLeft]
    cases bit with
    | zero => cases fixed : p c <;> simp [fixed]
    | succ bit =>
      have low : ((if p c then 1#32 else 0#32 : Code)).getLsbD (bit + 1) = false := by
        cases fixed : p c <;> simp
      rw [low, Nat.add_sub_cancel, ih]
      by_cases inside : bit + 1 < 32
      · have below : bit < 32 := by omega
        simp [inside, below]
      · simp [inside]

theorem isFixed_eq_false {c : Char} (symbol : c.isDigit = false) : isFixed c = false := by
  cases fixed : isFixed c with
  | false => rfl
  | true =>
    rw [isFixed, Bool.or_eq_true, beq_iff_eq, beq_iff_eq] at fixed
    rcases fixed with rfl | rfl <;> cases symbol

/-- An operand whose bits all show its symbol, in characters that begin at bit `low`. -/
structure Shown (low : Nat) (chars : List Char) (operand : Operand) : Prop where
  above : low ≤ operand.low
  ordered : operand.low ≤ operand.high
  nonDigit : operand.symbol.isDigit = false
  symbols : ∀ bit, operand.low ≤ bit → bit ≤ operand.high →
    chars[bit - low]? = some operand.symbol

theorem Shown.append {low : Nat} {chars : List Char} {operand : Operand} (first : List Char)
    (shown : Shown (low + first.length) chars operand) : Shown low (first ++ chars) operand := by
  have above := shown.above
  refine ⟨by omega, shown.ordered, shown.nonDigit, fun bit lower upper => ?_⟩
  rw [List.getElem?_append_right (by omega), ← shown.symbols bit lower upper]
  congr 1
  omega

theorem Shown.high_lt {low : Nat} {chars : List Char} {operand : Operand}
    (shown : Shown low chars operand) : operand.high < low + chars.length := by
  have last := shown.symbols operand.high shown.ordered (Nat.le_refl _)
  obtain ⟨inside, -⟩ := List.getElem?_eq_some_iff.mp last
  have above := shown.above
  have ordered := shown.ordered
  omega

/-- A run of one character, and what is behind it. -/
theorem eq_replicate_append (c : Char) (chars : List Char) :
    chars = List.replicate (chars.takeWhile (· == c)).length c ++ chars.dropWhile (· == c) := by
  have run : chars.takeWhile (· == c) = List.replicate (chars.takeWhile (· == c)).length c := by
    apply List.eq_replicate_of_mem
    intro other member
    exact beq_iff_eq.mp (List.all_eq_true.mp List.all_takeWhile other member)
  rw [← run, List.takeWhile_append_dropWhile]

theorem cons_eq_replicate_append (c : Char) (rest : List Char) :
    c :: rest = List.replicate ((rest.takeWhile (· == c)).length + 1) c ++
      rest.dropWhile (· == c) := by
  rw [List.replicate_succ, List.cons_append, ← eq_replicate_append]

theorem shown_of_mem_runs (low : Nat) (chars : List Char) :
    ∀ operand ∈ runs low chars, Shown low chars operand := by
  fun_induction runs low chars with
  | case1 low => simp
  | case2 low c rest digit ih =>
    intro operand member
    exact (ih operand member).append [c]
  | case3 low c rest symbol more ih =>
    have whole := cons_eq_replicate_append c rest
    intro operand member
    rcases List.mem_cons.mp member with rfl | later
    · refine ⟨Nat.le_refl _, Nat.le_add_right _ _, by simpa using symbol, fun bit lower upper => ?_⟩
      simp only at lower upper ⊢
      rw [whole, List.getElem?_append_left (by simp; omega), List.getElem?_replicate]
      simp
      omega
    · rw [whole]
      apply Shown.append
      rw [List.length_replicate, ← Nat.add_assoc]
      exact ih operand later

theorem pairwise_runs (low : Nat) (chars : List Char) :
    (runs low chars).Pairwise fun first second => first.high < second.low := by
  fun_induction runs low chars with
  | case1 low => exact .nil
  | case2 low c rest digit ih => exact ih
  | case3 low c rest symbol more ih =>
    refine .cons (fun operand member => ?_) ih
    have above := (shown_of_mem_runs _ _ operand member).above
    exact Nat.lt_of_succ_le above

end Pattern

theorem PatternKind.bits_of_width? {kind : PatternKind} {size : Nat} {width : Width}
    (allowed : kind.width? size = some width) : width.bits = size := by
  unfold PatternKind.width? at allowed
  split at allowed <;> cases allowed <;> rfl

theorem Width.bits_le (width : Width) : width.bits ≤ 32 := by
  cases width <;> decide

/-- The characters of a pattern that is read, and everything read from them. -/
theorem BitPattern.scan_eq_ok {kind : PatternKind} {text : String} {pattern : BitPattern}
    (read : BitPattern.scan kind text = .ok pattern) :
    ∃ chars : List Char, chars = text.toList.filter (fun c => !Text.isBlank c) ∧
      kind.width? chars.length = some pattern.width ∧
      pattern.fixedMask = Pattern.bitsWhere Pattern.isFixed chars ∧
      pattern.fixedValue = Pattern.bitsWhere (· == '1') chars ∧
      pattern.operands = Pattern.runs 0 chars.reverse := by
  refine ⟨_, rfl, ?_⟩
  unfold BitPattern.scan at read
  dsimp only at read
  split at read
  · cases read
  · rename_i width allowed
    split at read
    · cases read
    · cases read
      exact ⟨allowed, rfl, rfl, rfl⟩

/-- Fixed bits and operands share the bits of an encoding without overlap. -/
structure WellLaid (width : Width) (mask value : Code) (operands : List Operand) : Prop where
  valued : ∀ bit, value.getLsbD bit = true → mask.getLsbD bit = true
  inside : ∀ bit, mask.getLsbD bit = true → bit < width.bits
  ordered : ∀ operand ∈ operands, operand.low ≤ operand.high ∧ operand.high < width.bits
  ascending : operands.Pairwise fun first second => first.high < second.low
  separate : ∀ operand ∈ operands, ∀ bit, operand.low ≤ bit → bit ≤ operand.high →
    mask.getLsbD bit = false

namespace WellLaid

variable {width : Width} {mask value : Code} {operands : List Operand}

theorem getLsbD_value_eq_false (laid : WellLaid width mask value operands) {bit : Nat}
    (unfixed : mask.getLsbD bit = false) : value.getLsbD bit = false := by
  cases one : value.getLsbD bit with
  | false => rfl
  | true => exact (laid.valued bit one).symm.trans unfixed

theorem value_and_mask (laid : WellLaid width mask value operands) : value &&& mask = value := by
  apply BitVec.eq_of_getLsbD_eq
  intro bit _
  rw [BitVec.getLsbD_and]
  cases fixed : mask.getLsbD bit with
  | true => rw [Bool.and_true]
  | false => rw [laid.getLsbD_value_eq_false fixed, Bool.false_and]

theorem getLsbD_value_of_le (laid : WellLaid width mask value operands) {bit : Nat}
    (outside : width.bits ≤ bit) : value.getLsbD bit = false := by
  apply laid.getLsbD_value_eq_false
  exact (Bool.not_eq_true _).mp fun fixed => Nat.not_le.mpr (laid.inside bit fixed) outside

theorem value_lt (laid : WellLaid width mask value operands) : value.toNat < 2 ^ width.bits :=
  Nat.lt_pow_two_of_testBit value.toNat fun _ outside => laid.getLsbD_value_of_le outside

end WellLaid

theorem BitPattern.wellLaid_of_scan {kind : PatternKind} {text : String} {pattern : BitPattern}
    (read : BitPattern.scan kind text = .ok pattern) :
    WellLaid pattern.width pattern.fixedMask pattern.fixedValue pattern.operands := by
  obtain ⟨chars, -, allowed, mask, value, operands⟩ := BitPattern.scan_eq_ok read
  have size : pattern.width.bits = chars.reverse.length := by
    rw [List.length_reverse, PatternKind.bits_of_width? allowed]
  have maskBit (bit : Nat) : pattern.fixedMask.getLsbD bit =
      (decide (bit < 32) && chars.reverse[bit]?.any Pattern.isFixed) := by
    rw [mask, ← Pattern.getLsbD_bitsWhere, List.reverse_reverse]
  have valueBit (bit : Nat) : pattern.fixedValue.getLsbD bit =
      (decide (bit < 32) && chars.reverse[bit]?.any (· == '1')) := by
    rw [value, ← Pattern.getLsbD_bitsWhere, List.reverse_reverse]
  have shown (operand : Operand) (member : operand ∈ pattern.operands) :
      Pattern.Shown 0 chars.reverse operand := by
    rw [operands] at member
    exact Pattern.shown_of_mem_runs 0 _ operand member
  constructor
  · intro bit one
    rw [valueBit, Bool.and_eq_true] at one
    obtain ⟨c, found, same⟩ := (Option.any_eq_true _ _).mp one.2
    rw [maskBit, one.1, found, Option.any_some, Pattern.isFixed, same, Bool.or_true, Bool.and_true]
  · intro bit fixed
    rw [maskBit, Bool.and_eq_true] at fixed
    obtain ⟨c, found, -⟩ := (Option.any_eq_true _ _).mp fixed.2
    rw [size]
    exact (List.getElem?_eq_some_iff.mp found).1
  · intro operand member
    have high := (shown operand member).high_lt
    exact ⟨(shown operand member).ordered, by omega⟩
  · rw [operands]
    exact Pattern.pairwise_runs 0 _
  · intro operand member bit lower upper
    have here := (shown operand member).symbols bit lower upper
    have symbol := (shown operand member).nonDigit
    rw [Nat.sub_zero] at here
    rw [maskBit, here, Option.any_some, Pattern.isFixed_eq_false symbol, Bool.and_false]

end DspIsa
