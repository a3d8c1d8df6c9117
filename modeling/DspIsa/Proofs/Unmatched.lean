import DspIsa.Proofs.Consultation
import DspIsa.Proofs.RoundTrip

/-! What words decode to that no main instruction matches. The decoder trusts the tree, so such
words are unknown except where they reach a leaf without its instruction being fully checked. -/
namespace DspIsa

namespace Instruction

variable {instr : Instruction} {first second looked : Word}

/-- The fixed bits that stay open when only the `looked` bits of the first word are known. -/
def unchecked (instr : Instruction) (looked : Word) : Code :=
  instr.fixedMask &&& ~~~instr.codeOf looked 0#16

theorem getLsbD_unchecked (looked : Word) (bit : Nat) :
    (instr.unchecked looked).getLsbD bit =
      (instr.fixedMask.getLsbD bit && !(instr.codeOf looked 0#16).getLsbD bit) :=
  Bits.getLsbD_and_not instr.fixedMask (instr.codeOf looked 0#16) bit

/-- Where two first words agree on the `looked` bits, so do the codes that they begin. -/
theorem getLsbD_codeOf_congr {other : Word} {bit : Nat}
    (known : (instr.codeOf looked 0#16).getLsbD bit = true)
    (same : ∀ bit, looked.getLsbD bit = true → first.getLsbD bit = other.getLsbD bit)
    (second third : Word) :
    (instr.codeOf first second).getLsbD bit = (instr.codeOf other third).getLsbD bit := by
  cases width : instr.width with
  | bits8 =>
    rw [getLsbD_codeOf_bits8 width, Bool.and_eq_true] at known
    rw [getLsbD_codeOf_bits8 width, getLsbD_codeOf_bits8 width, same bit known.2]
  | bits16 =>
    rw [getLsbD_codeOf_bits16 width] at known
    rw [getLsbD_codeOf_bits16 width, getLsbD_codeOf_bits16 width, same bit known]
  | bits32 =>
    rw [getLsbD_codeOf_bits32 width] at known
    rw [getLsbD_codeOf_bits32 width, getLsbD_codeOf_bits32 width]
    split
    · rename_i low
      simp [low] at known
    · rename_i high
      rw [if_neg high] at known
      exact same _ known

/-- Where the first word has the value of an instruction on the `looked` bits, the code can differ
from the fixed bits in unchecked ones only. -/
theorem unchecked_of_ne (laid : instr.WellLaid)
    (same : ∀ bit, looked.getLsbD bit = true →
      first.getLsbD bit = instr.firstWordValue.getLsbD bit) {bit : Nat}
    (fixed : instr.fixedMask.getLsbD bit = true)
    (differ : (instr.codeOf first second).getLsbD bit ≠ instr.fixedValue.getLsbD bit) :
    (instr.unchecked looked).getLsbD bit = true := by
  rw [getLsbD_unchecked, fixed, Bool.true_and, Bool.not_eq_true']
  cases known : (instr.codeOf looked 0#16).getLsbD bit with
  | false => rfl
  | true =>
    have agrees := getLsbD_codeOf_congr known same second (instr.splitWords instr.fixedValue).2
    rw [codeOf_fixedValue laid] at agrees
    exact absurd agrees differ

/-- The word `first`, with every bit that is not `looked` at unlike `value`. -/
def spoiled (looked first value : Word) : Word :=
  (first &&& looked) ||| (~~~value &&& ~~~looked)

theorem getLsbD_spoiled_of_looked {value : Word} {bit : Nat} (known : looked.getLsbD bit = true) :
    (spoiled looked first value).getLsbD bit = first.getLsbD bit := by
  simp [spoiled, known]

theorem getLsbD_spoiled_of_not_looked {value : Word} {bit : Nat} (inside : bit < 16)
    (unknown : looked.getLsbD bit = false) :
    (spoiled looked first value).getLsbD bit = !value.getLsbD bit := by
  rw [spoiled, BitVec.getLsbD_or, BitVec.getLsbD_and, BitVec.getLsbD_and, BitVec.getLsbD_not,
    BitVec.getLsbD_not, unknown]
  simp [inside]

/-- Spoiled words have every unchecked bit wrong. -/
theorem getLsbD_codeOf_spoiled_ne (laid : instr.WellLaid) (main : instr.width ≠ .bits8)
    {bit : Nat} (missed : (instr.unchecked looked).getLsbD bit = true) :
    (instr.codeOf (spoiled looked first instr.firstWordValue)
      (~~~(instr.splitWords instr.fixedValue).2)).getLsbD bit ≠
        instr.fixedValue.getLsbD bit := by
  rw [getLsbD_unchecked, Bool.and_eq_true, Bool.not_eq_true'] at missed
  obtain ⟨fixed, unknown⟩ := missed
  have inside := laid.inside bit fixed
  have value := congrArg (fun code => code.getLsbD bit) (codeOf_fixedValue laid)
  rw [← value]
  cases width : instr.width with
  | bits8 => exact absurd width main
  | bits16 =>
    rw [width] at inside
    change bit < 16 at inside
    rw [getLsbD_codeOf_bits16 width] at unknown
    rw [getLsbD_codeOf_bits16 width, getLsbD_codeOf_bits16 width,
      getLsbD_spoiled_of_not_looked inside unknown]
    simp
  | bits32 =>
    rw [width] at inside
    change bit < 32 at inside
    rw [getLsbD_codeOf_bits32 width] at unknown
    rw [getLsbD_codeOf_bits32 width, getLsbD_codeOf_bits32 width]
    split
    · rename_i low
      simp [low]
    · rename_i high
      rw [if_neg high] at unknown
      rw [getLsbD_spoiled_of_not_looked (by omega) unknown]
      simp

theorem isMatch_spoiled (laid : instr.WellLaid) (main : instr.width ≠ .bits8)
    (incomplete : instr.unchecked looked ≠ 0#32) :
    instr.isMatch (spoiled looked first instr.firstWordValue)
      (~~~(instr.splitWords instr.fixedValue).2) = false := by
  rw [← Bool.not_eq_true, isMatch_iff laid]
  intro matched
  refine incomplete (BitVec.eq_of_getLsbD_eq fun bit _ => ?_)
  cases missed : (instr.unchecked looked).getLsbD bit with
  | false => simp
  | true =>
    have fixed := missed
    rw [getLsbD_unchecked, Bool.and_eq_true] at fixed
    exact absurd (matched bit fixed.1) (getLsbD_codeOf_spoiled_ne laid main missed)

end Instruction

/-- No main instruction matches the two words. -/
def Document.Unmatched (doc : Document) (first second : Word) : Prop :=
  ∀ instr ∈ doc.instructions, instr.isMatch first second = false

/-- Where a word leads to a leaf and the instruction there does not match, none does. -/
theorem Document.unmatched_of_lookup {doc : Document} (formed : doc.WellFormed) {index : Nat}
    {instr : Instruction} {first second : Word} (found : doc.instructions[index]? = some instr)
    (hit : (DecisionTree.build doc.instructions).lookup first = some index)
    (missed : instr.isMatch first second = false) : doc.Unmatched first second := by
  intro other member
  cases matched : other.isMatch first second with
  | false => rfl
  | true =>
    obtain ⟨place, listed⟩ := List.getElem?_of_mem member
    have agrees := Instruction.agrees_of_isMatch (formed.main other member).2 matched
    rcases DecisionTree.lookup_eq_or_ambiguous listed agrees with same | ⟨nowhere, -⟩
    · cases same.symm.trans hit
      cases listed.symm.trans found
      exact matched.symm.trans missed
    · cases nowhere.symm.trans hit

/-- Whatever a word is looked up as, the tables on its way look at all of its fixed bits. -/
def DecisionTree.Thorough (tree : DecisionTree) : Prop :=
  ∀ word index instr, tree.lookup word = some index → tree.instructions[index]? = some instr →
    instr.unchecked (tree.consulted word) = 0#32

namespace Decoder

variable {doc : Document} {decoder : Decoder} {first : Word}

/-- Two words decode to an instruction that they differ from only where no table looked. -/
theorem decodeMain_of_lookup_eq_some (formed : doc.WellFormed)
    (made : ofDocument doc = .ok decoder) {index : Nat}
    (hit : decoder.tree.lookup first = some index) (second : Word) :
    ∃ instr, doc.instructions[index]? = some instr ∧
      (decoder.decodeMain first second).isFallback = false ∧
      (decoder.decodeMain first second).instruction? = some instr ∧
      ∀ bit, instr.fixedMask.getLsbD bit = true →
        (instr.codeOf first second).getLsbD bit ≠ instr.fixedValue.getLsbD bit →
        (instr.unchecked (decoder.tree.consulted first)).getLsbD bit = true := by
  have tree := tree_of_ofDocument made
  rw [tree] at hit ⊢
  obtain ⟨instr, layout, found, laidOut, decoded⟩ := decodeMain_of_lookup made hit second
  obtain ⟨other, same, looked⟩ := DecisionTree.exists_instruction_of_lookup hit
  cases same.symm.trans found
  obtain ⟨laid, -⟩ := formed.main instr (List.mem_of_getElem? found)
  refine ⟨instr, found, ?_, ?_, fun bit fixed differ => ?_⟩
  · rw [decoded]
    rfl
  · rw [decoded]
    exact Layout.instruction?_read laidOut first second
  · exact Instruction.unchecked_of_ne laid (fun bit known => (looked bit known).2) fixed differ

theorem isFallback_of_thorough (formed : doc.WellFormed) (made : ofDocument doc = .ok decoder)
    (thorough : decoder.tree.Thorough) {second : Word} (unmatched : doc.Unmatched first second) :
    (decoder.decodeMain first second).isFallback = true := by
  have tree := tree_of_ofDocument made
  cases lookup : decoder.tree.lookup first with
  | none =>
    rw [tree] at lookup
    rw [decodeMain_of_lookup_eq_none made lookup]
    rfl
  | some index =>
    obtain ⟨instr, found, -, -, differ⟩ := decodeMain_of_lookup_eq_some formed made lookup second
    have member := List.mem_of_getElem? found
    have checked := thorough first index instr lookup (by rw [tree]; exact found)
    have matched : instr.isMatch first second = true := by
      apply (Instruction.isMatch_iff (formed.main instr member).1).mpr
      intro bit fixed
      by_contra wrong
      have missed := differ bit fixed wrong
      rw [checked] at missed
      simp at missed
    cases matched.symm.trans (unmatched instr member)

/-- A leaf with an unchecked bit has a word that nothing matches and that decodes to it. -/
theorem thorough_of_isFallback (formed : doc.WellFormed) (made : ofDocument doc = .ok decoder)
    (unknown : ∀ first second, doc.Unmatched first second →
      (decoder.decodeMain first second).isFallback = true) : decoder.tree.Thorough := by
  have tree := tree_of_ofDocument made
  intro word index instr hit found
  rw [tree] at hit found
  obtain ⟨laid, main⟩ := formed.main instr (List.mem_of_getElem? found)
  by_contra missed
  have again : (DecisionTree.build doc.instructions).lookup
      (Instruction.spoiled (decoder.tree.consulted word) word instr.firstWordValue) =
        some index := by
    rw [← hit]
    apply DecisionTree.lookup_congr
    intro bit known
    rw [← tree] at known
    exact Instruction.getLsbD_spoiled_of_looked known
  have unmatched :=
    doc.unmatched_of_lookup formed found again (Instruction.isMatch_spoiled laid main missed)
  obtain ⟨-, -, known, -⟩ :=
    decodeMain_of_lookup_eq_some formed made (by rw [tree]; exact again) _
  cases (unknown _ _ unmatched).symm.trans known

/-- Unmatched words of an accepted spec are unknown if the first of them leads to no leaf. If it
leads to one, they decode to its instruction, and only bits that no table on the way looked at are
wrong in them. All of them are unknown exactly when the tree is thorough. -/
theorem decodeMain_of_unmatched {loader : Loader} {path source : String}
    (accepted : (loader.loadText path source).value.1 = .ok doc) :
    ∃ decoder, ofDocument doc = .ok decoder ∧
      (∀ first second, doc.Unmatched first second →
        let op := decoder.decodeMain first second
        (decoder.tree.lookup first = none ∧
          op.isFallback = true ∧ op.fields = [] ∧ op.wordCount = 1) ∨
          ∃ index instr, decoder.tree.lookup first = some index ∧
            doc.instructions[index]? = some instr ∧
            op.isFallback = false ∧ op.instruction? = some instr ∧
            ∀ bit, instr.fixedMask.getLsbD bit = true →
              (instr.codeOf first second).getLsbD bit ≠ instr.fixedValue.getLsbD bit →
              (instr.unchecked (decoder.tree.consulted first)).getLsbD bit = true) ∧
      ((∀ first second, doc.Unmatched first second →
        (decoder.decodeMain first second).isFallback = true) ↔ decoder.tree.Thorough) := by
  obtain ⟨decoder, made⟩ := exists_of_loadText accepted
  have formed := Spec.wellFormed_of_parse (Loader.loadText_eq_ok accepted).1
  refine ⟨decoder, made, fun first second _ => ?_, thorough_of_isFallback formed made,
    fun thorough first second => isFallback_of_thorough formed made thorough⟩
  cases lookup : decoder.tree.lookup first with
  | none =>
    rw [tree_of_ofDocument made] at lookup
    rw [decodeMain_of_lookup_eq_none made lookup]
    exact .inl ⟨rfl, rfl, rfl, rfl⟩
  | some index =>
    obtain ⟨instr, found⟩ := decodeMain_of_lookup_eq_some formed made lookup second
    exact .inr ⟨index, instr, rfl, found⟩

theorem thorough_mixedWidths :
    (DecisionTree.build [noOperation, loadImmediate]).Thorough := by
  intro word index instr _ found
  have root : (DecisionTree.build [noOperation, loadImmediate]).root =
      .table 0xC000#16 #[.leaf 0, .leaf 1, .empty, .empty] := by
    cbv
  have looked : (DecisionTree.build [noOperation, loadImmediate]).consulted word =
      0xC000#16 := by
    have inside : Bits.gather word 0xC000#16 < 4 := Bits.gather_lt word 0xC000#16
    have slot : Bits.gather word 0xC000#16 = 0 ∨ Bits.gather word 0xC000#16 = 1 ∨
        Bits.gather word 0xC000#16 = 2 ∨ Bits.gather word 0xC000#16 = 3 := by
      omega
    rw [DecisionTree.consulted, root, DecisionNode.consulted_table]
    rcases slot with slot | slot | slot | slot <;> simp [slot]
  have few : index < 2 := (List.getElem?_eq_some_iff.mp found).1
  have place : index = 0 ∨ index = 1 := by omega
  rw [looked]
  rcases place with rfl | rfl
  · cases found
    decide
  · cases found
    decide

theorem decodeMain_mixedWidths :
    ∃ doc decoder, (Loader.new.loadText "mixed" mixedWidths).value.1 = .ok doc ∧
      ofDocument doc = .ok decoder ∧ decoder.tree.Thorough ∧
      doc.Unmatched 0x8000#16 0x0000#16 ∧
      (decoder.decodeMain 0x8000#16 0x0000#16).isFallback = true := by
  obtain ⟨doc, accepted, instructions⟩ := exists_mixedWidths
  obtain ⟨decoder, made, -, unknown⟩ := decodeMain_of_unmatched accepted
  have thorough : decoder.tree.Thorough := by
    have tree := tree_of_ofDocument made
    rw [tree, instructions]
    exact thorough_mixedWidths
  have unmatched : doc.Unmatched 0x8000#16 0x0000#16 := by
    unfold Document.Unmatched
    rw [instructions]
    decide
  exact ⟨doc, decoder, accepted, made, thorough, unmatched, unknown.mpr thorough _ _ unmatched⟩

/-- A spec with one instruction, whose tree is a leaf and looks at no bit. -/
def lonely : String := "ADD D * 0011 000d 0000 0000\n"

def addition : Instruction :=
  ⟨"ADD_D", "ADD", [⟨8, 8, 'd'⟩], 0xFEFF#32, 0x3000#32, .bits16, ⟨"lonely", ⟨1, 1⟩, ⟨1, 28⟩⟩⟩

theorem decodeMain_lonely :
    ∃ doc decoder, (Loader.new.loadText "lonely" lonely).value.1 = .ok doc ∧
      ofDocument doc = .ok decoder ∧ doc.Unmatched 0xFFFF#16 0x0000#16 ∧
      (decoder.decodeMain 0xFFFF#16 0x0000#16).isFallback = false ∧
      (decoder.decodeMain 0xFFFF#16 0x0000#16).instruction? = some addition := by
  obtain ⟨doc, accepted, instructions, -⟩ := Loader.exists_loadText
    (by decide +kernel : ((Loader.new.loadText "lonely" lonely).value.1.toOption.map
      fun doc => (doc.instructions, doc.extensions)) = some ([addition], []))
  obtain ⟨decoder, made⟩ := exists_of_loadText accepted
  have hit : (DecisionTree.build doc.instructions).lookup 0xFFFF#16 = some 0 := by
    rw [instructions]
    cbv
  have unmatched : doc.Unmatched 0xFFFF#16 0x0000#16 := by
    unfold Document.Unmatched
    rw [instructions]
    decide
  obtain ⟨instr, layout, found, laidOut, decoded⟩ := decodeMain_of_lookup made hit 0x0000#16
  have same : instr = addition := by simpa [instructions] using found.symm
  subst same
  refine ⟨doc, decoder, accepted, made, unmatched, ?_, ?_⟩
  · rw [decoded]
    rfl
  · rw [decoded]
    exact Layout.instruction?_read laidOut _ _

end Decoder

end DspIsa
