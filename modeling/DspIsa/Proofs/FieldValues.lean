import DspIsa.Proofs.ByteOwners

/-! Fields by their names. No two fields of an instruction have one name, so the name of an operand
leads to its value in whatever was decoded: the bits of the operand in the code the words hold. -/
namespace DspIsa

/-- By the name of each operand, the operation shows the bits of that operand in the code. -/
def Operation.ShowsOperands (op : Operation) (instr : Instruction) (code : Code) : Prop :=
  ∀ (index : Nat) (operand : Operand), instr.operands[index]? = some operand →
    ∃ name, instr.fieldNames[index]? = some name ∧
      op.field? name = some ((Bits.extract code operand.low operand.high).setWidth 16)

theorem Layout.showsOperands_read {instr : Instruction} {layout : Layout}
    (laidOut : Layout.ofInstruction instr = .ok layout) (first second : Word) :
    (layout.read first second).ShowsOperands instr (instr.codeOf first second) := by
  intro index operand found
  obtain ⟨name, source, named, resolved, -, shown⟩ :=
    exists_field_read laidOut found first second
  refine ⟨name, named, ?_⟩
  rw [shown, OperandSource.read_eq_extract resolved]

namespace Decoder

variable {doc : Document} {decoder : Decoder} {first second : Word} {hit : Option Nat}

/-- What is read by the layout of an instruction that was looked up, or a fallback where nothing was
found. -/
def IsRead (doc : Document) (first second : Word) (hit : Option Nat) (op : Operation) : Prop :=
  (hit = none ∧ ∃ nop, op = .fallback nop) ∨
    hit.isSome = true ∧ ∃ instr ∈ doc.instructions ++ doc.extensions, ∃ layout,
      Layout.ofInstruction instr = .ok layout ∧ op = layout.read first second

theorem isRead_decodeMain (made : ofDocument doc = .ok decoder) (first second : Word) :
    IsRead doc first second (decoder.tree.lookup first) (decoder.decodeMain first second) := by
  rw [tree_of_ofDocument made]
  cases hit : (DecisionTree.build doc.instructions).lookup first with
  | none => exact .inl ⟨rfl, _, decodeMain_of_lookup_eq_none made hit second⟩
  | some index =>
    obtain ⟨instr, layout, found, laidOut, decoded⟩ := decodeMain_of_lookup made hit second
    exact .inr ⟨rfl, instr, List.mem_append_left _ (List.mem_of_getElem? found), layout, laidOut,
      decoded⟩

theorem isRead_decodeExtension (made : ofDocument doc = .ok decoder) (word : Word) :
    IsRead doc word 0#16 (decoder.table.owner? (word &&& 0xFF#16).toNat)
      (decoder.decodeExtension word) := by
  rw [(ofDocument_eq_ok made).2.2.2.1]
  cases owned : (ExtensionTable.build doc.extensions).owner? (word &&& 0xFF#16).toNat with
  | none => exact .inl ⟨rfl, _, decodeExtension_of_owner?_eq_none made owned⟩
  | some index =>
    obtain ⟨extension, layout, found, laidOut, decoded⟩ := decodeExtension_of_owner? made owned
    exact .inr ⟨rfl, extension, List.mem_append_right _ (List.mem_of_getElem? found), layout,
      laidOut, decoded⟩

/-- A call of the decoder makes the operation of the words from what it looks up: the leaf of the
first word, or the owner of its low byte. An extension has no second word, and nothing is looked up
for a word that carries none. -/
inductive Makes (decoder : Decoder) : Word → Word → Option Nat → Operation → Prop where
  | main (first second : Word) :
      Makes decoder first second (decoder.tree.lookup first) (decoder.decodeMain first second)
  | extension (word : Word) :
      Makes decoder word 0#16 (decoder.table.owner? (word &&& 0xFF#16).toNat)
        (decoder.decodeExtension word)
  | leading (first second : Word) :
      Makes decoder first second (decoder.tree.lookup first) (decoder.decode first second).main
  | appended (first second : Word) :
      Makes decoder first 0#16
        (if extensionNibble ≤ (first >>> 12).toNat then
          decoder.table.owner? (first &&& 0xFF#16).toNat else none)
        (decoder.decode first second).extension

theorem Makes.isRead (made : ofDocument doc = .ok decoder) {op : Operation}
    (makes : decoder.Makes first second hit op) : IsRead doc first second hit op := by
  cases makes with
  | main => exact isRead_decodeMain made first second
  | extension => exact isRead_decodeExtension made first
  | leading =>
    unfold decode
    dsimp only
    split <;> exact isRead_decodeMain made _ _
  | appended =>
    unfold decode
    dsimp only
    split
    · exact isRead_decodeExtension made first
    · exact .inl ⟨rfl, _, rfl⟩

/-- Every instruction has one field name per operand, and no name twice, whatever its symbols are.
So what a decoder makes shows each operand of its instruction by the operand's name; where nothing
was found it is the fallback, which has no fields. -/
theorem field?_fieldNames :
    (∀ instr : Instruction, instr.fieldNames.length = instr.operands.length ∧
      instr.fieldNames.Nodup) ∧
    ∀ doc decoder, ofDocument doc = .ok decoder → ∀ first second hit op,
      decoder.Makes first second hit op →
        (hit = none ∧ op.isFallback = true ∧ op.fields = []) ∨
        hit.isSome = true ∧ ∃ instr ∈ doc.instructions ++ doc.extensions, op.isFallback = false ∧
          op.instruction? = some instr ∧ op.fields.map (·.name) = instr.fieldNames ∧
          op.ShowsOperands instr (instr.codeOf first second) := by
  refine ⟨fun instr => ⟨instr.length_fieldNames, instr.nodup_fieldNames⟩,
    fun doc decoder made first second hit op makes => ?_⟩
  rcases makes.isRead made with
    ⟨missed, nop, rfl⟩ | ⟨found, instr, known, layout, laidOut, rfl⟩
  · exact .inl ⟨missed, rfl, rfl⟩
  · exact .inr ⟨found, instr, known, rfl, Layout.instruction?_read laidOut first second,
      Layout.map_name_read laidOut first second, Layout.showsOperands_read laidOut first second⟩

/-- Letters of both cases and other characters, some of them more than once. -/
def recurring : Instruction :=
  ⟨"SPLIT", "SPLIT", [⟨4, 5, 'b'⟩, ⟨6, 7, 'B'⟩, ⟨8, 9, '+'⟩, ⟨10, 11, 'é'⟩, ⟨12, 13, '+'⟩],
    0xC00F#32, 0x8000#32, .bits16, .line "recurring" 1⟩

theorem field?_fieldNames_recurring :
    recurring.fieldNames = ["b", "b_1", "op_2b", "op_e9", "op_2b_1"] ∧
    ∃ decoder, ofDocument ⟨"recurring", "", [recurring], []⟩ = .ok decoder ∧
      (decoder.decodeMain 0xB960#16 0#16).field? "b_1" = some 1#16 ∧
      (decoder.decodeMain 0xB960#16 0#16).field? "op_2b_1" = some 3#16 := by
  have names : recurring.fieldNames = ["b", "b_1", "op_2b", "op_e9", "op_2b_1"] := by
    decide +kernel
  obtain ⟨decoder, made⟩ : ∃ decoder,
      ofDocument ⟨"recurring", "", [recurring], []⟩ = .ok decoder := by
    refine exists_of_resolveAll fun instr member => ?_
    rw [List.mem_singleton.mp member]
    exact OperandSource.exists_resolveAll rfl
  have hit : (DecisionTree.build [recurring]).lookup 0xB960#16 = some 0 := by cbv
  rcases field?_fieldNames.2 _ decoder made _ _ _ _ (.main 0xB960#16 0#16) with
    ⟨missed, -⟩ | ⟨-, instr, member, -, -, -, values⟩
  · rw [tree_of_ofDocument made, hit] at missed
    cases missed
  · obtain rfl := List.mem_singleton.mp member
    rw [Operation.ShowsOperands, names] at values
    obtain ⟨_, ⟨⟩, second⟩ := values 1 _ rfl
    obtain ⟨_, ⟨⟩, last⟩ := values 4 _ rfl
    exact ⟨names, decoder, made, second.trans (by decide), last.trans (by decide)⟩

end Decoder

end DspIsa
