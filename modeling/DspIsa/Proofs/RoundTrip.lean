import DspIsa.Proofs.Decoding

/-! Decoding what was encoded: on a spec without ambiguous groups, the words of every encoding
decode to their own instruction, with every value cut to the width of its operand. -/
namespace DspIsa

namespace Instruction

variable {instr : Instruction}

/-- The first word of an encoding agrees with the fixed bits that the decision tree looks at. -/
theorem agrees_encode (laid : instr.WellLaid) (main : instr.width ≠ .bits8) (values : List Code) :
    (instr.splitWords (instr.encode values)).1 &&& instr.firstWordMask =
      instr.firstWordValue &&& instr.firstWordMask :=
  agrees_of_isMatch main (isMatch_encode laid values)

theorem toNat_read_encode (laid : instr.WellLaid) {index : Nat} {operand : Operand}
    {source : OperandSource} (found : instr.operands[index]? = some operand)
    (resolved : OperandSource.resolve instr operand = .ok source) (values : List Code) :
    (source.read (instr.splitWords (instr.encode values)).1
      (instr.splitWords (instr.encode values)).2).toNat =
        (values.getD index 0#32).toNat % 2 ^ operand.width := by
  have inside := (laid.ordered operand (List.mem_of_getElem? found)).2
  have narrow := OperandSource.width_le_of_resolve inside resolved
  have small : (values.getD index 0#32).toNat % 2 ^ operand.width < 2 ^ 16 :=
    Nat.lt_of_lt_of_le (Nat.mod_lt _ (Nat.two_pow_pos _))
      (Nat.pow_le_pow_right (by decide) narrow)
  rw [OperandSource.read_encode laid found resolved values, BitVec.toNat_ofNat,
    Nat.mod_eq_of_lt small]

end Instruction

namespace Decoder

/-- An encoding whose first word leads to its own leaf decodes to its instruction. -/
theorem decodeMain_encode {doc : Document} {decoder : Decoder}
    (made : ofDocument doc = .ok decoder) {index : Nat} {instr : Instruction}
    (found : doc.instructions[index]? = some instr) {first : Word} (second : Word)
    (hit : (DecisionTree.build doc.instructions).lookup first = some index) :
    ∃ layout, Layout.ofInstruction instr = .ok layout ∧
      decoder.decodeMain first second = layout.read first second := by
  obtain ⟨other, layout, listed, laidOut, decoded⟩ := decodeMain_of_lookup made hit second
  cases listed.symm.trans found
  exact ⟨layout, laidOut, decoded⟩

/-- On an accepted spec whose tree reports nothing, the words of an encoding decode to the
instruction that was encoded, and its fields hold the values cut to the operands' widths. -/
theorem decodeMain_splitWords_encode {loader : Loader} {path source : String} {doc : Document}
    (accepted : (loader.loadText path source).value.1 = .ok doc)
    (silent : (DecisionTree.build doc.instructions).diagnostics = [])
    {index : Nat} {instr : Instruction} (found : doc.instructions[index]? = some instr)
    (values : List Code) :
    ∃ decoder, ofDocument doc = .ok decoder ∧
      (instr.encode values).toNat < 2 ^ instr.width.bits ∧
      let words := instr.splitWords (instr.encode values)
      let op := decoder.decodeMain words.1 words.2
      instr.isMatch words.1 words.2 = true ∧
      decoder.tree.lookup words.1 = some index ∧
      op.isFallback = false ∧ op.instruction? = some instr ∧ op.name = instr.name ∧
      op.fields.map (·.name) = instr.fieldNames ∧
      op.fields.length = instr.operands.length ∧
      ∀ k operand, instr.operands[k]? = some operand →
        ∃ field, op.fields[k]? = some field ∧ instr.fieldNames[k]? = some field.name ∧
          op.field? field.name = some field.value ∧
          field.value.toNat = (values.getD k 0#32).toNat % 2 ^ operand.width := by
  obtain ⟨decoder, made⟩ := exists_of_loadText accepted
  have formed := Spec.wellFormed_of_parse (Loader.loadText_eq_ok accepted).1
  obtain ⟨laid, main⟩ := formed.main instr (List.mem_of_getElem? found)
  have hit :=
    DecisionTree.lookup_of_silent silent found (Instruction.agrees_encode laid main values)
  obtain ⟨layout, laidOut, decoded⟩ := decodeMain_encode made found _ hit
  have named := Layout.instruction?_read laidOut
  refine ⟨decoder, made, Instruction.encode_lt laid values, Instruction.isMatch_encode laid values,
    by rw [tree_of_ofDocument made]; exact hit, ?_⟩
  rw [decoded]
  refine ⟨rfl, named _ _, by simp [Operation.name, named], Layout.map_name_read laidOut _ _, ?_, ?_⟩
  · have size := congrArg List.length (Layout.map_name_read laidOut
      (instr.splitWords (instr.encode values)).1 (instr.splitWords (instr.encode values)).2)
    rwa [List.length_map, instr.length_fieldNames] at size
  · intro k operand listed
    obtain ⟨name, source, ident, resolved, field, byName⟩ :=
      Layout.exists_field_read laidOut listed _ _
    exact ⟨_, field, ident, byName, Instruction.toNat_read_encode laid listed resolved values⟩

/-- A one-word and a two-word instruction; the second repeats a symbol in the other case. -/
def mixedWidths : String :=
  "NOP * 00xx xxxx xxxx xxxx\nLRI D I * 01dx xxxx xxxx xxxD iiii iiii iiii iiii\n"

def noOperation : Instruction :=
  ⟨"NOP", "NOP", [⟨0, 13, 'x'⟩], 0xC000#32, 0x0000#32, .bits16, ⟨"mixed", ⟨1, 1⟩, ⟨1, 26⟩⟩⟩

def loadImmediate : Instruction :=
  ⟨"LRI_D_I", "LRI", [⟨0, 15, 'i'⟩, ⟨16, 16, 'D'⟩, ⟨17, 28, 'x'⟩, ⟨29, 29, 'd'⟩],
    0xC0000000#32, 0x40000000#32, .bits32, ⟨"mixed", ⟨2, 1⟩, ⟨2, 50⟩⟩⟩

theorem exists_loadText_mixedWidths :
    ∃ doc, (Loader.new.loadText "mixed" mixedWidths).value.1 = .ok doc ∧
      doc.instructions = [noOperation, loadImmediate] ∧ doc.extensions = [] :=
  Loader.exists_loadText
    (by decide +kernel : ((Loader.new.loadText "mixed" mixedWidths).value.1.toOption.map
      fun doc => (doc.instructions, doc.extensions)) = some ([noOperation, loadImmediate], []))

theorem exists_mixedWidths :
    ∃ doc, (Loader.new.loadText "mixed" mixedWidths).value.1 = .ok doc ∧
      doc.instructions = [noOperation, loadImmediate] := by
  obtain ⟨doc, accepted, instructions, -⟩ := exists_loadText_mixedWidths
  exact ⟨doc, accepted, instructions⟩

theorem decodeMain_splitWords_encode_loadImmediate :
    ∃ doc decoder, (Loader.new.loadText "mixed" mixedWidths).value.1 = .ok doc ∧
      (DecisionTree.build doc.instructions).diagnostics = [] ∧
      doc.instructions[1]? = some loadImmediate ∧ ofDocument doc = .ok decoder ∧
      let words := loadImmediate.splitWords (loadImmediate.encode [0x12345#32, 0x3#32])
      (decoder.decodeMain words.1 words.2).instruction? = some loadImmediate ∧
      (decoder.decodeMain words.1 words.2).field? "i" = some 0x2345#16 ∧
      (decoder.decodeMain words.1 words.2).field? "d" = some 0x1#16 ∧
      (decoder.decodeMain words.1 words.2).field? "d_1" = some 0x0#16 := by
  obtain ⟨doc, accepted, instructions⟩ := exists_mixedWidths
  have silent : (DecisionTree.build doc.instructions).diagnostics = [] := by
    rw [instructions, DecisionTree.diagnostics_eq_nil_iff]
    cbv
  have found : doc.instructions[1]? = some loadImmediate := by
    rw [instructions]
    rfl
  obtain ⟨decoder, made, -, -, -, -, named, -, -, -, fields⟩ :=
    decodeMain_splitWords_encode accepted silent found [0x12345#32, 0x3#32]
  have names : loadImmediate.fieldNames = ["i", "d", "x", "d_1"] := by decide +kernel
  have shown (k : Nat) {operand : Operand} {name : String} {value : Word}
      (listed : loadImmediate.operands[k]? = some operand)
      (ident : ["i", "d", "x", "d_1"][k]? = some name)
      (cut : value.toNat = ([0x12345#32, 0x3#32].getD k 0#32).toNat % 2 ^ operand.width) :
      (decoder.decodeMain (loadImmediate.splitWords (loadImmediate.encode [0x12345#32, 0x3#32])).1
        (loadImmediate.splitWords (loadImmediate.encode [0x12345#32, 0x3#32])).2).field? name =
          some value := by
    obtain ⟨⟨other, held⟩, -, same, byName, kept⟩ := fields k operand listed
    rw [names] at same
    cases same.symm.trans ident
    exact byName.trans (congrArg some (BitVec.eq_of_toNat_eq (kept.trans cut.symm)))
  refine ⟨doc, decoder, accepted, silent, found, made, named, ?_, ?_, ?_⟩
  · exact shown 0 rfl rfl rfl
  · exact shown 1 rfl rfl rfl
  · exact shown 3 rfl rfl rfl

end Decoder

end DspIsa
