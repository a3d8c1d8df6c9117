import DspIsa.Proofs.RoundTrip
import DspIsa.Proofs.Separation

/-! Which instructions of an accepted spec their own encodings lead back to. Bits that split every
two instructions are not enough: three of them may leave a table without a bit they all fix. -/
namespace DspIsa

namespace Decoder

/-- The instruction has a leaf, and its encoding without operand values decodes to it. -/
def Restores (decoder : Decoder) (index : Nat) (instr : Instruction) : Prop :=
  index ∈ decoder.tree.root.leaves ∧
    let words := instr.splitWords (instr.encode [])
    (decoder.decodeMain words.1 words.2).isFallback = false ∧
      (decoder.decodeMain words.1 words.2).instruction? = some instr

theorem restores_of_lookup {doc : Document} {decoder : Decoder}
    (made : ofDocument doc = .ok decoder) {index : Nat} {instr : Instruction}
    (found : doc.instructions[index]? = some instr)
    (hit : (DecisionTree.build doc.instructions).lookup
      (instr.splitWords (instr.encode [])).1 = some index) : decoder.Restores index instr := by
  have tree := tree_of_ofDocument made
  obtain ⟨layout, laidOut, decoded⟩ :=
    decodeMain_encode made found (instr.splitWords (instr.encode [])).2 hit
  refine ⟨?_, ?_⟩
  · rw [tree]
    exact DecisionNode.mem_leaves_of_lookup (BitVec.allOnes 16) _ hit
  · dsimp only
    rw [decoded]
    exact ⟨rfl, Layout.instruction?_read laidOut _ _⟩

/-- An instruction is restored exactly when no reported group has it as a member. -/
theorem restores_iff {doc : Document} {decoder : Decoder} (formed : doc.WellFormed)
    (made : ofDocument doc = .ok decoder) {index : Nat} {instr : Instruction}
    (found : doc.instructions[index]? = some instr) :
    decoder.Restores index instr ↔ ∀ group ∈ decoder.tree.root.ambiguities, index ∉ group := by
  have tree := tree_of_ofDocument made
  constructor
  · rintro ⟨leaf, -⟩
    rw [tree] at leaf ⊢
    exact DecisionTree.not_mem_ambiguous_of_mem_leaves leaf
  · intro alone
    obtain ⟨laid, main⟩ := formed.main instr (List.mem_of_getElem? found)
    rw [tree] at alone
    apply restores_of_lookup made found
    rcases DecisionTree.lookup_eq_or_ambiguous found (Instruction.agrees_encode laid main []) with
      hit | ⟨-, group, reported, inGroup⟩
    · exact hit
    · exact absurd inGroup (alone group reported)

/-- On an accepted spec the tree is silent exactly when its instructions are separated, and then
every instruction is restored. Where only every two instructions are apart, a reported group has
three members or more, and the instructions outside of all groups are the ones restored. -/
theorem restores_of_separated {loader : Loader} {path source : String} {doc : Document}
    (accepted : (loader.loadText path source).value.1 = .ok doc) :
    ∃ decoder, ofDocument doc = .ok decoder ∧
      (decoder.tree.diagnostics = [] ↔ Instruction.Separated doc.instructions) ∧
      (Instruction.Separated doc.instructions →
        ∀ index instr, doc.instructions[index]? = some instr → decoder.Restores index instr) ∧
      (doc.instructions.Pairwise Instruction.Apart →
        ∀ group ∈ decoder.tree.root.ambiguities, 3 ≤ group.length) ∧
      ∀ index instr, doc.instructions[index]? = some instr →
        (decoder.Restores index instr ↔
          ∀ group ∈ decoder.tree.root.ambiguities, index ∉ group) := by
  obtain ⟨decoder, made⟩ := exists_of_loadText accepted
  have formed := Spec.wellFormed_of_parse (Loader.loadText_eq_ok accepted).1
  have tree := tree_of_ofDocument made
  have silent : decoder.tree.diagnostics = [] ↔ Instruction.Separated doc.instructions := by
    rw [tree]
    exact DecisionTree.silent_iff_separated
  refine ⟨decoder, made, silent, ?_, ?_, fun index instr found => restores_iff formed made found⟩
  · intro separated index instr found
    apply (restores_iff formed made found).mpr
    rw [DecisionTree.diagnostics_eq_nil_iff.mp (silent.mpr separated)]
    exact fun group reported => nomatch reported
  · intro apart group reported
    rw [tree] at reported
    exact DecisionTree.three_le_length_of_ambiguous apart reported

theorem restores_mixedWidths :
    ∃ doc decoder, (Loader.new.loadText "mixed" mixedWidths).value.1 = .ok doc ∧
      ofDocument doc = .ok decoder ∧ Instruction.Separated doc.instructions ∧
      decoder.tree.diagnostics = [] ∧
      decoder.Restores 0 noOperation ∧ decoder.Restores 1 loadImmediate := by
  obtain ⟨doc, accepted, instructions⟩ := exists_mixedWidths
  obtain ⟨decoder, made, silent, restored, -⟩ := restores_of_separated accepted
  have separated : Instruction.Separated doc.instructions := by
    rw [instructions]
    have apart : Instruction.Apart noOperation loadImmediate :=
      ⟨14, by decide, by decide, by decide⟩
    exact apart.separated
  exact ⟨doc, decoder, accepted, made, separated, silent.mpr separated,
    restored separated 0 _ (by rw [instructions]; rfl),
    restored separated 1 _ (by rw [instructions]; rfl)⟩

/-- Each of the three lowest bits tells two of these instructions apart and is open in the third. -/
def crossing : String :=
  "A * xxxx xxxx xxxx xx00\nB * xxxx xxxx xxxx x01x\nC * xxxx xxxx xxxx x1x1\n"

def crossingInstructions : List Instruction :=
  [⟨"A", "A", [⟨2, 15, 'x'⟩], 0x0003#32, 0x0000#32, .bits16, ⟨"crossing", ⟨1, 1⟩, ⟨1, 24⟩⟩⟩,
    ⟨"B", "B", [⟨0, 0, 'x'⟩, ⟨3, 15, 'x'⟩], 0x0006#32, 0x0002#32, .bits16,
      ⟨"crossing", ⟨2, 1⟩, ⟨2, 24⟩⟩⟩,
    ⟨"C", "C", [⟨1, 1, 'x'⟩, ⟨3, 15, 'x'⟩], 0x0005#32, 0x0005#32, .bits16,
      ⟨"crossing", ⟨3, 1⟩, ⟨3, 24⟩⟩⟩]

theorem apart_crossing : crossingInstructions.Pairwise Instruction.Apart := by
  simp only [crossingInstructions, List.pairwise_cons, List.forall_mem_cons, List.not_mem_nil,
    false_implies, implies_true, and_true, List.Pairwise.nil]
  exact ⟨⟨⟨1, by decide, by decide, by decide⟩, ⟨0, by decide, by decide, by decide⟩⟩,
    ⟨2, by decide, by decide, by decide⟩⟩

theorem not_restores_crossing :
    ∃ doc decoder, (Loader.new.loadText "crossing" crossing).value.1 = .ok doc ∧
      ofDocument doc = .ok decoder ∧ doc.instructions.Pairwise Instruction.Apart ∧
      decoder.tree.diagnostics ≠ [] ∧ decoder.tree.root.leaves = [] ∧
      ∀ instr ∈ doc.instructions,
        let words := instr.splitWords (instr.encode [])
        (decoder.decodeMain words.1 words.2).isFallback = true := by
  obtain ⟨doc, accepted, instructions, -⟩ := Loader.exists_loadText
    (by decide +kernel : ((Loader.new.loadText "crossing" crossing).value.1.toOption.map
      fun doc => (doc.instructions, doc.extensions)) = some (crossingInstructions, []))
  obtain ⟨decoder, made⟩ := exists_of_loadText accepted
  have tree := tree_of_ofDocument made
  have root : (DecisionTree.build doc.instructions).root = .ambiguous [0, 1, 2] := by
    rw [instructions]
    cbv
  refine ⟨doc, decoder, accepted, made, instructions ▸ apart_crossing, ?_, ?_, ?_⟩
  · rw [tree, ne_eq, DecisionTree.diagnostics_eq_nil_iff, root]
    simp
  · rw [tree, root]
    simp
  · intro instr _
    dsimp only
    rw [decodeMain_of_lookup_eq_none made (by rw [DecisionTree.lookup, root]; simp)]
    rfl

end Decoder

end DspIsa
