import DspIsa.Proofs.ByteOwners

/-! Encoding what was decoded: fixed bits and operands leave no bit of an encoding open, so the
fields of a word that matches its instruction give the word back. -/
namespace DspIsa

/-- Every symbol of a pattern belongs to an operand. -/
theorem Pattern.exists_run_of_symbol {c : Char} (symbol : c.isDigit = false) (low : Nat)
    (chars : List Char) : ∀ bit, chars[bit]? = some c →
      ∃ operand ∈ runs low chars, operand.Covers (low + bit) := by
  fun_induction runs low chars with
  | case1 low => simp
  | case2 low first rest digit ih =>
    intro bit found
    cases bit with
    | zero =>
      cases found
      simp [symbol] at digit
    | succ bit =>
      obtain ⟨operand, member, covers⟩ := ih bit (by simpa using found)
      exact ⟨operand, member, by rwa [Nat.add_right_comm, Nat.add_assoc] at covers⟩
  | case3 low first rest letter more ih =>
    intro bit found
    by_cases inside : bit ≤ more
    · exact ⟨_, List.mem_cons_self, Nat.le_add_right low bit, Nat.add_le_add_left inside low⟩
    · have past : more + 1 ≤ bit := Nat.lt_of_not_le inside
      rw [cons_eq_replicate_append, List.getElem?_append_right (by simpa using past),
        List.length_replicate] at found
      obtain ⟨operand, member, covers⟩ := ih _ found
      refine ⟨operand, List.mem_cons_of_mem _ member, ?_⟩
      have place : low + more + 1 + (bit - (more + 1)) = low + bit := by omega
      rwa [place] at covers

/-- A pattern that is read has no digit but zero and one. -/
theorem BitPattern.isBadDigit_eq_false_of_scan {kind : PatternKind} {text : String}
    {pattern : BitPattern} (read : BitPattern.scan kind text = .ok pattern) {c : Char}
    (member : c ∈ text.toList.filter fun c => !Text.isBlank c) : Pattern.isBadDigit c = false := by
  unfold BitPattern.scan at read
  dsimp only at read
  split at read
  · cases read
  split at read
  · cases read
  · rename_i good
    rw [← List.zipIdx_map_fst 1 (text.toList.filter _)] at member
    obtain ⟨entry, listed, rfl⟩ := List.mem_map.mp member
    exact (Bool.not_eq_true _).mp (List.find?_eq_none.mp good entry listed)

/-- Fixed bits and operands leave no bit of an encoding open. -/
def Covered (width : Width) (mask : Code) (operands : List Operand) : Prop :=
  ∀ bit, bit < width.bits → mask.getLsbD bit = true ∨ ∃ operand ∈ operands, operand.Covers bit

theorem BitPattern.covered_of_scan {kind : PatternKind} {text : String} {pattern : BitPattern}
    (read : BitPattern.scan kind text = .ok pattern) :
    Covered pattern.width pattern.fixedMask pattern.operands := by
  obtain ⟨chars, kept, allowed, mask, -, operands⟩ := BitPattern.scan_eq_ok read
  have size := PatternKind.bits_of_width? allowed
  intro bit inside
  have narrow : bit < 32 := Nat.lt_of_lt_of_le inside pattern.width.bits_le
  rw [size, ← List.length_reverse] at inside
  have found := List.getElem?_eq_getElem inside
  have member := List.mem_reverse.mp (List.getElem_mem inside)
  generalize chars.reverse[bit] = c at found member
  cases symbol : c.isDigit with
  | false =>
    have run := Pattern.exists_run_of_symbol symbol 0 chars.reverse bit found
    rw [← operands, Nat.zero_add] at run
    exact .inr run
  | true =>
    have good := isBadDigit_eq_false_of_scan read (kept ▸ member)
    have fixed : Pattern.isFixed c = true := by simpa [Pattern.isBadDigit, symbol] using good
    refine .inl ?_
    rw [mask, ← chars.reverse_reverse, Pattern.getLsbD_bitsWhere, found]
    simp [narrow, fixed]

namespace Instruction

/-- The pattern of the instruction leaves no bit open. -/
abbrev IsCovered (instr : Instruction) : Prop :=
  Covered instr.width instr.fixedMask instr.operands

variable {instr : Instruction}

/-- A code is the encoding of the values that it holds at the places of the operands. -/
theorem encode_eq_of_holds (laid : instr.WellLaid) (covered : instr.IsCovered) {code : Code}
    {values : List Code} (fits : ∀ bit, instr.width.bits ≤ bit → code.getLsbD bit = false)
    (fixed : ∀ bit, instr.fixedMask.getLsbD bit = true →
      code.getLsbD bit = instr.fixedValue.getLsbD bit)
    (held : ∀ index operand, instr.operands[index]? = some operand → ∀ bit, operand.Covers bit →
      (values.getD index 0#32).getLsbD (bit - operand.low) = code.getLsbD bit) :
    instr.encode values = code := by
  apply BitVec.eq_of_getLsbD_eq
  intro bit _
  by_cases inside : bit < instr.width.bits
  · rcases covered bit inside with isFixed | ⟨operand, member, covers⟩
    · rw [getLsbD_encode_of_fixed laid values isFixed, fixed bit isFixed]
    · obtain ⟨index, found⟩ := List.mem_iff_getElem?.mp member
      rw [getLsbD_encode_of_covers laid values found covers, held index operand found bit covers]
  · have outside := Nat.le_of_not_lt inside
    rw [getLsbD_encode_of_le laid values outside, fits bit outside]

theorem getLsbD_codeOf_of_le (first second : Word) {bit : Nat}
    (outside : instr.width.bits ≤ bit) : (instr.codeOf first second).getLsbD bit = false := by
  cases width : instr.width with
  | bits8 =>
    rw [width] at outside
    change 8 ≤ bit at outside
    rw [getLsbD_codeOf_bits8 width, decide_eq_false (Nat.not_lt.mpr outside), Bool.false_and]
  | bits16 =>
    rw [width] at outside
    rw [getLsbD_codeOf_bits16 width, BitVec.getLsbD_of_ge first bit outside]
  | bits32 =>
    rw [width] at outside
    exact BitVec.getLsbD_of_ge _ bit outside

/-- The words of the code that two words hold: both of them, or the first alone. -/
theorem splitWords_codeOf (instr : Instruction) (first second : Word) :
    (instr.width = .bits32 → instr.splitWords (instr.codeOf first second) = (first, second)) ∧
      (instr.width = .bits16 → instr.splitWords (instr.codeOf first second) = (first, 0#16)) := by
  constructor
  · intro wide
    have main : instr.width ≠ .bits8 := by simp [wide]
    refine Prod.ext ((splitWords_fst _).trans (firstWordOf_codeOf main first second)) ?_
    rw [splitWords, wide]
    apply BitVec.eq_of_getLsbD_eq
    intro bit inside
    rw [BitVec.getLsbD_setWidth, getLsbD_codeOf_bits32 wide]
    simp [inside]
  · intro narrow
    have main : instr.width ≠ .bits8 := by simp [narrow]
    refine Prod.ext ((splitWords_fst _).trans (firstWordOf_codeOf main first second)) ?_
    rw [splitWords, narrow]

end Instruction

/-- The fields that are read from matching words encode to the code that the words hold. -/
theorem Layout.encode_read {instr : Instruction} {layout : Layout} (laid : instr.WellLaid)
    (covered : instr.IsCovered) (laidOut : Layout.ofInstruction instr = .ok layout)
    {first second : Word} (matched : instr.isMatch first second = true) :
    instr.encode ((layout.read first second).fields.map fun field => field.value.setWidth 32) =
      instr.codeOf first second := by
  refine Instruction.encode_eq_of_holds laid covered
    (fun bit outside => Instruction.getLsbD_codeOf_of_le first second outside)
    ((Instruction.isMatch_iff laid).mp matched) fun index operand found bit covers => ?_
  obtain ⟨name, source, -, resolved, listed, -⟩ := exists_field_read laidOut found first second
  have inside := (laid.ordered operand (List.mem_of_getElem? found)).2
  have within : bit - operand.low < operand.width := by
    have upper := covers.2
    rw [Operand.width]
    omega
  have place : operand.low + (bit - operand.low) = bit := Nat.add_sub_cancel' covers.1
  have narrow := OperandSource.width_le_of_resolve inside resolved
  have value : ((layout.read first second).fields.map fun field => field.value.setWidth 32).getD
      index 0#32 = (source.read first second).setWidth 32 := by
    rw [List.getD_eq_getElem?_getD, List.getElem?_map, listed]
    rfl
  rw [value, BitVec.getLsbD_setWidth, OperandSource.getLsbD_read resolved inside,
    place, decide_eq_true within]
  have small : bit - operand.low < 32 := by omega
  simp [small]

namespace Decoder

/-- On an accepted spec, the fields of every word that decodes to an instruction it matches encode
to that word, and with the second word where the instruction has two. The fields of a word whose low
byte has an owner encode to that byte. -/
theorem encode_fields {loader : Loader} {path source : String} {doc : Document}
    (accepted : (loader.loadText path source).value.1 = .ok doc) :
    ∃ decoder, ofDocument doc = .ok decoder ∧
      (∀ first second, (decoder.decodeMain first second).isFallback = false →
        ∃ instr ∈ doc.instructions, (decoder.decodeMain first second).instruction? = some instr ∧
          (instr.isMatch first second = true →
            let code := instr.encode
              ((decoder.decodeMain first second).fields.map fun field => field.value.setWidth 32)
            (instr.width = .bits32 ∧ instr.splitWords code = (first, second)) ∨
              (instr.width = .bits16 ∧ instr.splitWords code = (first, 0#16)))) ∧
      ∀ word index, decoder.table.owner? (word &&& 0xFF#16).toNat = some index →
        ∃ extension, doc.extensions[index]? = some extension ∧
          (decoder.decodeExtension word).isFallback = false ∧
          (decoder.decodeExtension word).instruction? = some extension ∧
          extension.encode
              ((decoder.decodeExtension word).fields.map fun field => field.value.setWidth 32) =
            (word &&& 0xFF#16).setWidth 32 := by
  obtain ⟨decoder, made⟩ := exists_of_loadText accepted
  have read := (Loader.loadText_eq_ok accepted).1
  have formed := Spec.wellFormed_of_parse read
  have covered (instr : Instruction) (member : instr ∈ doc.instructions ++ doc.extensions) :
      instr.IsCovered := by
    obtain ⟨kind, text, scanned⟩ := Spec.exists_scan_of_parse read instr member
    exact BitPattern.covered_of_scan scanned
  refine ⟨decoder, made, fun first second known => ?_, fun word index owned => ?_⟩
  · cases hit : (DecisionTree.build doc.instructions).lookup first with
    | none =>
      rw [decodeMain_of_lookup_eq_none made hit] at known
      cases known
    | some index =>
      obtain ⟨instr, layout, found, laidOut, decoded⟩ := decodeMain_of_lookup made hit second
      have member := List.mem_of_getElem? found
      obtain ⟨laid, main⟩ := formed.main instr member
      rw [decoded]
      refine ⟨instr, member, Layout.instruction?_read laidOut first second, fun matched => ?_⟩
      have code := Layout.encode_read laid (covered instr (List.mem_append_left _ member)) laidOut
        matched
      obtain ⟨two, one⟩ := instr.splitWords_codeOf first second
      dsimp only
      rw [code]
      cases width : instr.width with
      | bits8 => exact absurd width main
      | bits16 => exact .inr ⟨rfl, one width⟩
      | bits32 => exact .inl ⟨rfl, two width⟩
  · rw [(ofDocument_eq_ok made).2.2.2.1] at owned
    obtain ⟨-, other, there, matched⟩ := ExtensionTable.exists_of_owner? owned
    obtain ⟨extension, layout, found, laidOut, decoded⟩ := decodeExtension_of_owner? made owned
    have same : other = extension := Option.some.inj (there.symm.trans found)
    have member := List.mem_of_getElem? found
    obtain ⟨laid, byte⟩ := formed.extension extension member
    rw [same, ← Instruction.isMatch_eq_isByteMatch byte word 0#16] at matched
    rw [decoded]
    refine ⟨extension, found, rfl, Layout.instruction?_read laidOut word 0#16, ?_⟩
    rw [Layout.encode_read laid (covered extension (List.mem_append_right _ member)) laidOut
      matched, Instruction.codeOf, byte]

/-- One two-word instruction, and two extensions; the second one matches a byte of the first. -/
def interrupted : String :=
  "LRI D I * 010d 0000 0000 0000 iiii iiii iiii iiii\n" ++
    "'HALT * xxxx xxxx 0001 0110\n'MV D S * xxxx xxxx 0001 ddss\n"

def loadShort : Instruction :=
  ⟨"LRI_D_I", "LRI", [⟨0, 15, 'i'⟩, ⟨28, 28, 'd'⟩], 0xEFFF0000#32, 0x40000000#32, .bits32,
    ⟨"interrupted", ⟨1, 1⟩, ⟨1, 50⟩⟩⟩

def halt : Instruction :=
  ⟨"HALT", "HALT", [], 0xFF#32, 0x16#32, .bits8, ⟨"interrupted", ⟨2, 1⟩, ⟨2, 28⟩⟩⟩

def move : Instruction :=
  ⟨"MV_D_S", "MV", [⟨0, 1, 's'⟩, ⟨2, 3, 'd'⟩], 0xF0#32, 0x10#32, .bits8,
    ⟨"interrupted", ⟨3, 1⟩, ⟨3, 30⟩⟩⟩

theorem exists_loadText_interrupted :
    ∃ doc, (Loader.new.loadText "interrupted" interrupted).value.1 = .ok doc ∧
      doc.instructions = [loadShort] ∧ doc.extensions = [halt, move] :=
  Loader.exists_loadText
    (by decide +kernel : ((Loader.new.loadText "interrupted" interrupted).value.1.toOption.map
      fun doc => (doc.instructions, doc.extensions)) = some ([loadShort], [halt, move]))

theorem encode_fields_interrupted :
    ∃ doc decoder, (Loader.new.loadText "interrupted" interrupted).value.1 = .ok doc ∧
      ofDocument doc = .ok decoder ∧
      loadShort.splitWords (loadShort.encode
        ((decoder.decodeMain 0x5000#16 0x2345#16).fields.map fun field =>
          field.value.setWidth 32)) = (0x5000#16, 0x2345#16) ∧
      move.encode ((decoder.decodeExtension 0x401E#16).fields.map fun field =>
        field.value.setWidth 32) = 0x1E#32 := by
  obtain ⟨doc, accepted, instructions, extensions⟩ := exists_loadText_interrupted
  obtain ⟨decoder, made, main, bytes⟩ := encode_fields accepted
  have tree : (DecisionTree.build doc.instructions).root = .leaf 0 := by
    rw [instructions]
    cbv
  have hit : (DecisionTree.build doc.instructions).lookup 0x5000#16 = some 0 := by
    rw [DecisionTree.lookup, tree, DecisionNode.lookup_leaf]
  have owned : decoder.table.owner? (0x401E#16 &&& 0xFF#16 : Word).toNat = some 1 := by
    rw [(ofDocument_eq_ok made).2.2.2.1, extensions, ExtensionTable.owner?_build (by decide)]
    decide
  refine ⟨doc, decoder, accepted, made, ?_, ?_⟩
  · obtain ⟨_, layout, _, _, decoded⟩ := decodeMain_of_lookup made hit 0x2345#16
    obtain ⟨instr, member, -, restored⟩ := main 0x5000#16 0x2345#16 (by rw [decoded]; rfl)
    rw [instructions, List.mem_singleton] at member
    rw [member] at restored
    rcases restored (by decide) with ⟨-, same⟩ | ⟨narrow, -⟩
    · exact same
    · cases narrow
  · obtain ⟨extension, found, -, -, same⟩ := bytes 0x401E#16 1 owned
    rw [extensions] at found
    cases found
    exact same

end Decoder

end DspIsa
