import DspIsa.Proofs.Reencoding
import DspIsa.Proofs.RoundTrip

/-! Decoding what an extension encoded. The encoding is one byte, and the word that carries it
decodes to the first extension that matches the byte: to the extension that was encoded, with its
values in the fields, or to an earlier one, and then the table has the two as a conflict. -/
namespace DspIsa

/-- The low byte of a word that is put together from two bytes. -/
theorem toNat_lowByte_ofBytes (high : BitVec 8) {byte : Nat} (inside : byte < 256) :
    (BitVec.ofNat 16 (high.toNat * 256 + byte) &&& 0xFF#16).toNat = byte := by
  have fits : high.toNat * 256 + byte < 2 ^ 16 := by
    have bound := high.isLt
    omega
  rw [BitVec.toNat_and, BitVec.toNat_ofNat, Nat.mod_eq_of_lt fits]
  have masked := Nat.and_two_pow_sub_one_eq_mod (high.toNat * 256 + byte) 8
  have rest : (high.toNat * 256 + byte) % 2 ^ 8 = byte := by omega
  exact masked.trans rest

/-- A source reads the same out of words that hold the same code. -/
theorem OperandSource.read_eq_of_codeOf {instr : Instruction} {operand : Operand}
    {source : OperandSource} (resolved : resolve instr operand = .ok source)
    {first second other another : Word}
    (same : instr.codeOf first second = instr.codeOf other another) :
    source.read first second = source.read other another := by
  rw [read_eq_extract resolved, read_eq_extract resolved, same]

/-- The fields of words that hold an encoding are the values, cut to the operands' widths. -/
theorem Layout.exists_field_of_codeOf {instr : Instruction} {layout : Layout}
    (laid : instr.WellLaid) (laidOut : Layout.ofInstruction instr = .ok layout)
    {first second : Word} {values : List Code}
    (held : instr.codeOf first second = instr.encode values) {index : Nat} {operand : Operand}
    (found : instr.operands[index]? = some operand) :
    ∃ field, (layout.read first second).fields[index]? = some field ∧
      instr.fieldNames[index]? = some field.name ∧
      (layout.read first second).field? field.name = some field.value ∧
      field.value.toNat = (values.getD index 0#32).toNat % 2 ^ operand.width := by
  obtain ⟨name, source, ident, resolved, listed, byName⟩ :=
    exists_field_read laidOut found first second
  have split := Instruction.codeOf_splitWords _ (Instruction.encode_lt laid values)
  refine ⟨_, listed, ident, byName, ?_⟩
  dsimp only
  rw [OperandSource.read_eq_of_codeOf resolved (held.trans split.symm),
    Instruction.toNat_read_encode laid found resolved values]

namespace Instruction

variable {extension : Instruction}

/-- A word holds the byte of an extension that its low byte is. -/
theorem codeOf_eq_of_lowByte (byte : extension.width = .bits8) {code : Code} {word : Word}
    (low : (word &&& 0xFF#16).toNat = code.toNat) (second : Word) :
    extension.codeOf word second = code := by
  rw [codeOf, byte]
  dsimp only
  rw [← BitVec.ofNat_toNat, low, BitVec.ofNat_toNat, BitVec.setWidth_eq]

/-- An extension matches its own encodings. -/
theorem isByteMatch_encode (laid : extension.WellLaid) (values : List Code) :
    ExtensionTable.isByteMatch (extension.encode values).toNat extension = true := by
  have matched := isMatch_encode laid values
  rwa [isMatch, codeOf_splitWords _ (encode_lt laid values), ← BitVec.setWidth_eq
    (extension.encode values), ← BitVec.ofNat_toNat] at matched

end Instruction

namespace Decoder

/-- A word whose low byte some extension matches decodes to the first one that does. Where that is
another extension, the table has the conflict of the two. -/
theorem decodeExtension_of_mem_matching {doc : Document} {decoder : Decoder}
    (made : ofDocument doc = .ok decoder) {word : Word} {byte k : Nat} (inside : byte < 256)
    (low : (word &&& 0xFF#16).toNat = byte)
    (matched : k ∈ ExtensionTable.matching doc.extensions byte) :
    ∃ index owner layout, doc.extensions[index]? = some owner ∧
      ExtensionTable.isByteMatch byte owner = true ∧
      (∀ earlier < index, ∀ other, doc.extensions[earlier]? = some other →
        ExtensionTable.isByteMatch byte other = false) ∧
      Layout.ofInstruction owner = .ok layout ∧
      decoder.decodeExtension word = layout.read word 0#16 ∧
      (k = index ∨ index < k ∧ ⟨byte, index, k⟩ ∈ decoder.table.conflicts) := by
  subst low
  obtain ⟨index, owned, placed⟩ := ExtensionTable.eq_owner_or_conflict inside matched
  obtain ⟨-, owner, listed, fits⟩ := ExtensionTable.exists_of_owner? owned
  obtain ⟨other, layout, there, laidOut, decoded⟩ := decodeExtension_of_owner? made owned
  cases there.symm.trans listed
  refine ⟨index, owner, layout, listed, fits, fun earlier before other there => ?_, laidOut,
    decoded, ?_⟩
  · exact ExtensionTable.isByteMatch_eq_false_of_lt owned before there
  · rw [(ofDocument_eq_ok made).2.2.2.1]
    exact placed

/-- In every document that is read and has a decoder, the encoding of an extension is one byte. A
word with that low byte decodes to the first extension that matches it. This is the extension
itself, with the values cut to the widths of the operands, unless one before it matches as well,
and then the table has the conflict of the two. -/
theorem decodeExtension_encode {path source : String} {doc : Document} {decoder : Decoder}
    (read : Spec.parse path source = .ok doc) (made : ofDocument doc = .ok decoder)
    {k : Nat} {extension : Instruction} (found : doc.extensions[k]? = some extension)
    (values : List Code) (high : BitVec 8) :
    let byte := (extension.encode values).toNat
    let op := decoder.decodeExtension (BitVec.ofNat 16 (high.toNat * 256 + byte))
    byte < 256 ∧ op.isFallback = false ∧
      ∃ index owner, doc.extensions[index]? = some owner ∧
        ExtensionTable.isByteMatch byte owner = true ∧
        (∀ earlier < index, ∀ other, doc.extensions[earlier]? = some other →
          ExtensionTable.isByteMatch byte other = false) ∧
        op.instruction? = some owner ∧ op.name = owner.name ∧
        ((index = k ∧ op.fields.map (·.name) = extension.fieldNames ∧
            op.fields.length = extension.operands.length ∧
            ∀ j operand, extension.operands[j]? = some operand →
              ∃ field, op.fields[j]? = some field ∧
                extension.fieldNames[j]? = some field.name ∧
                op.field? field.name = some field.value ∧
                field.value.toNat = (values.getD j 0#32).toNat % 2 ^ operand.width) ∨
          (index < k ∧ ⟨byte, index, k⟩ ∈ decoder.table.conflicts)) := by
  intro byte op
  have formed := Spec.wellFormed_of_parse read
  obtain ⟨laid, narrow⟩ := formed.extension extension (List.mem_of_getElem? found)
  have inside : byte < 256 := by
    have bound := Instruction.encode_lt laid values
    rwa [narrow] at bound
  have low := toNat_lowByte_ofBytes high inside
  have matched := ExtensionTable.mem_matching.mpr
    ⟨extension, found, Instruction.isByteMatch_encode laid values⟩
  obtain ⟨index, owner, layout, listed, fits, first, laidOut, decoded, placed⟩ :=
    decodeExtension_of_mem_matching made inside low matched
  have shown : op = layout.read (BitVec.ofNat 16 (high.toNat * 256 + byte)) 0#16 := decoded
  have named := Layout.instruction?_read laidOut (BitVec.ofNat 16 (high.toNat * 256 + byte)) 0#16
  rw [shown]
  refine ⟨inside, rfl, index, owner, listed, fits, first, named, ?_, ?_⟩
  · rw [Operation.name, named]
    rfl
  rcases placed with rfl | conflict
  · cases listed.symm.trans found
    have names := Layout.map_name_read laidOut (BitVec.ofNat 16 (high.toNat * 256 + byte)) 0#16
    have size := congrArg List.length names
    rw [List.length_map, extension.length_fieldNames] at size
    exact .inl ⟨rfl, names, size, fun j operand operands => Layout.exists_field_of_codeOf laid
      laidOut (Instruction.codeOf_eq_of_lowByte narrow low 0#16) operands⟩
  · exact .inr conflict

/-- Values that are too wide for their operands come back cut, and a byte that the other extension
matches first is a conflict. -/
theorem decodeExtension_encode_move :
    ∃ doc decoder, Spec.parse "interrupted" interrupted = .ok doc ∧
      ofDocument doc = .ok decoder ∧ doc.extensions[1]? = some move ∧
      (decoder.decodeExtension 0x401E#16).instruction? = some move ∧
      (decoder.decodeExtension 0x401E#16).field? "s" = some 2#16 ∧
      (decoder.decodeExtension 0x4016#16).instruction? = some halt ∧
      ⟨0x16, 0, 1⟩ ∈ decoder.table.conflicts := by
  obtain ⟨doc, accepted, -, extensions⟩ := exists_loadText_interrupted
  obtain ⟨decoder, made⟩ := exists_of_loadText accepted
  have read := (Loader.loadText_eq_ok accepted).1
  have found : doc.extensions[1]? = some move := by
    rw [extensions]
    rfl
  have halts : doc.extensions[0]? = some halt := by
    rw [extensions]
    rfl
  have itself : (decoder.decodeExtension 0x401E#16).instruction? = some move ∧
      (decoder.decodeExtension 0x401E#16).field? "s" = some 2#16 := by
    obtain ⟨-, -, index, owner, listed, fits, -, named, -, placed⟩ :=
      decodeExtension_encode read made found [6#32, 7#32] 0x40#8
    rcases placed with ⟨rfl, -, -, fields⟩ | ⟨before, -⟩
    · cases listed.symm.trans found
      obtain ⟨field, -, ident, byName, cut⟩ := fields 0 ⟨0, 1, 's'⟩ rfl
      have name : move.fieldNames[0]? = some "s" := by decide +kernel
      cases field with
      | mk known value =>
        cases ident.symm.trans name
        exact ⟨named, byName.trans (congrArg some (BitVec.eq_of_toNat_eq cut))⟩
    · cases Nat.lt_one_iff.mp before
      cases listed.symm.trans halts
      exact absurd fits (by decide)
  have earlier : (decoder.decodeExtension 0x4016#16).instruction? = some halt ∧
      ⟨0x16, 0, 1⟩ ∈ decoder.table.conflicts := by
    obtain ⟨-, -, index, owner, listed, -, first, named, -, placed⟩ :=
      decodeExtension_encode read made found [2#32, 1#32] 0x40#8
    rcases placed with ⟨rfl, -⟩ | ⟨before, conflict⟩
    · exact absurd (first 0 Nat.zero_lt_one halt halts) (by decide)
    · cases Nat.lt_one_iff.mp before
      cases listed.symm.trans halts
      exact ⟨named, conflict⟩
  exact ⟨doc, decoder, read, made, found, itself.1, itself.2, earlier⟩

end Decoder

end DspIsa
