import DspIsa.Decoder
import DspIsa.Proofs.Acceptance
import DspIsa.Proofs.FieldNames
import DspIsa.Proofs.Routing

/-! The decoder of a document: when it exists, and what one word or two decode to. -/
namespace DspIsa

section

variable {Fault Item Result : Type} {items : List Item}

theorem exists_mapM_eq_ok (step : Item → Except Fault Result)
    (every : ∀ item ∈ items, ∃ result, step item = .ok result) :
    ∃ results, items.mapM step = .ok results := by
  induction items with
  | nil => exact ⟨[], rfl⟩
  | cons item rest ih =>
    obtain ⟨result, first⟩ := every item (by simp)
    obtain ⟨results, others⟩ := ih fun other member => every other (by simp [member])
    refine ⟨result :: results, ?_⟩
    rw [List.mapM_cons, first, others]
    rfl

variable {step : Item → Except Fault Result} {results : List Result}

theorem mapM_cons_eq_ok {item : Item} (success : (item :: items).mapM step = .ok results) :
    ∃ result rest, step item = .ok result ∧ items.mapM step = .ok rest ∧
      results = result :: rest := by
  rw [List.mapM_cons] at success
  cases first : step item with
  | error fault => simp [first, bind, Except.bind] at success
  | ok result =>
    cases others : items.mapM step with
    | error fault => simp [first, others, bind, Except.bind] at success
    | ok rest =>
      refine ⟨result, rest, rfl, rfl, ?_⟩
      simpa [first, others, bind, Except.bind, pure, Except.pure] using success.symm

theorem exists_getElem?_of_mapM (success : items.mapM step = .ok results) {index : Nat}
    {item : Item} (found : items[index]? = some item) :
    ∃ result, results[index]? = some result ∧ step item = .ok result := by
  induction items generalizing results index with
  | nil => simp at found
  | cons head rest ih =>
    obtain ⟨result, tail, first, others, rfl⟩ := mapM_cons_eq_ok success
    cases index with
    | zero =>
      have same : head = item := by simpa using found
      subst same
      exact ⟨result, rfl, first⟩
    | succ index => exact ih others (by simpa using found)

theorem length_of_mapM (success : items.mapM step = .ok results) :
    results.length = items.length := by
  induction items generalizing results with
  | nil =>
    cases success
    rfl
  | cons head rest ih =>
    obtain ⟨result, tail, -, others, rfl⟩ := mapM_cons_eq_ok success
    rw [List.length_cons, List.length_cons, ih others]

theorem mem_of_mapM (success : items.mapM step = .ok results) {result : Result}
    (member : result ∈ results) : ∃ item ∈ items, step item = .ok result := by
  induction items generalizing results with
  | nil =>
    cases success
    cases member
  | cons head rest ih =>
    obtain ⟨first, others, made, more, rfl⟩ := mapM_cons_eq_ok success
    rcases List.mem_cons.mp member with rfl | later
    · exact ⟨head, List.mem_cons_self, made⟩
    · obtain ⟨item, listed, found⟩ := ih more later
      exact ⟨item, List.mem_cons_of_mem _ listed, found⟩

end

/-- Where no two items have one name, an item is found by its name. -/
theorem find?_of_nodup_map {Item : Type} {items : List Item} {name : Item → String}
    (distinct : (items.map name).Nodup) {item : Item} (member : item ∈ items) :
    items.find? (fun other => name other == name item) = some item := by
  cases hit : items.find? (fun other => name other == name item) with
  | none =>
    have missed := List.find?_eq_none.mp hit item member
    simp at missed
  | some other =>
    have named : name other = name item := by simpa using List.find?_some hit
    exact congrArg some
      (List.inj_on_of_nodup_map distinct (List.mem_of_find?_eq_some hit) member named)

namespace OperandSource

variable {instr : Instruction}

/-- An operand has a source unless it lies in both words. -/
theorem exists_resolveAll (whole : instr.straddling = []) :
    ∃ sources, resolveAll instr = .ok sources := by
  apply exists_mapM_eq_ok
  intro operand member
  cases width : instr.width with
  | bits8 => exact ⟨.extensionByte operand.low operand.high, by simp [resolve, width]⟩
  | bits16 => exact ⟨.firstWord operand.low operand.high, by simp [resolve, width]⟩
  | bits32 =>
    have oneWord : ¬ (operand.low < 16 ∧ 16 ≤ operand.high) := by
      intro straddles
      simp only [Instruction.straddling, width, ↓reduceIte, List.map_eq_nil_iff,
        List.filter_eq_nil_iff] at whole
      exact whole operand member (by simp [straddles])
    simp only [resolve, width]
    split
    · exact ⟨_, rfl⟩
    split
    · exact ⟨_, rfl⟩
    split
    · exact ⟨_, rfl⟩
    · exact absurd ⟨by omega, by omega⟩ oneWord

/-- Only a two-word instruction has an operand that depends on the second word. -/
theorem read_eq_of_width {operand : Operand} {source : OperandSource}
    (resolved : resolve instr operand = .ok source) (narrow : instr.width ≠ .bits32)
    (first second other : Word) : source.read first second = source.read first other := by
  unfold resolve at resolved
  split at resolved
  · cases resolved
    rfl
  · cases resolved
    rfl
  · rename_i wide
    exact absurd wide narrow

end OperandSource

namespace Operation

/-- Where no two fields have one name, a field is found by its name. -/
theorem field?_of_getElem? {op : Operation} (distinct : (op.fields.map (·.name)).Nodup)
    {index : Nat} {field : FieldValue} (found : op.fields[index]? = some field) :
    op.field? field.name = some field.value := by
  rw [field?, find?_of_nodup_map distinct (List.mem_of_getElem? found), Option.map_some]

end Operation

namespace Layout

variable {instr : Instruction} {layout : Layout}

theorem ofInstruction_eq_ok (laidOut : ofInstruction instr = .ok layout) :
    layout.instruction = instr ∧ OperandSource.resolveAll instr = .ok layout.sources := by
  unfold ofInstruction at laidOut
  cases resolved : OperandSource.resolveAll instr with
  | error fault =>
    rw [resolved] at laidOut
    cases laidOut
  | ok sources =>
    rw [resolved] at laidOut
    cases laidOut
    exact ⟨rfl, rfl⟩

/-- What is read does not depend on the second word unless the instruction has two. -/
theorem read_eq_of_width (laidOut : ofInstruction instr = .ok layout)
    (narrow : instr.width ≠ .bits32) (first second other : Word) :
    layout.read first second = layout.read first other := by
  have same : layout.sources.map (fun source => source.read first second) =
      layout.sources.map fun source => source.read first other := by
    refine List.map_congr_left fun source member => ?_
    obtain ⟨operand, -, resolved⟩ := mem_of_mapM (ofInstruction_eq_ok laidOut).2 member
    exact OperandSource.read_eq_of_width resolved narrow first second other
  have fields (second : Word) : layout.read first second = .decoded layout.instruction
      (List.zipWith FieldValue.mk layout.instruction.fieldNames
        (layout.sources.map fun source => source.read first second)) := by
    rw [List.zipWith_map_right]
    rfl
  rw [fields, fields, same]

theorem instruction?_read (laidOut : ofInstruction instr = .ok layout) (first second : Word) :
    (layout.read first second).instruction? = some instr := by
  rw [← (ofInstruction_eq_ok laidOut).1]
  rfl

theorem fields_read (laidOut : ofInstruction instr = .ok layout) (first second : Word) :
    (layout.read first second).fields =
      List.zipWith (fun name source => ⟨name, OperandSource.read source first second⟩)
        instr.fieldNames layout.sources := by
  rw [← (ofInstruction_eq_ok laidOut).1]
  rfl

/-- The fields that are read carry the field names of the instruction, in operand order. -/
theorem map_name_read (laidOut : ofInstruction instr = .ok layout) (first second : Word) :
    (layout.read first second).fields.map (·.name) = instr.fieldNames := by
  have size : instr.fieldNames.length = layout.sources.length := by
    rw [length_of_mapM (ofInstruction_eq_ok laidOut).2, instr.length_fieldNames]
  have names := List.map_fst_zip (Nat.le_of_eq size)
  rw [List.map_zip_eq_zipWith] at names
  rw [fields_read laidOut, List.map_zipWith]
  exact names

/-- The field of an operand is what the operand's source reads. -/
theorem exists_field_read (laidOut : ofInstruction instr = .ok layout) {index : Nat}
    {operand : Operand} (found : instr.operands[index]? = some operand) (first second : Word) :
    ∃ name source, instr.fieldNames[index]? = some name ∧
      OperandSource.resolve instr operand = .ok source ∧
      (layout.read first second).fields[index]? = some ⟨name, source.read first second⟩ ∧
      (layout.read first second).field? name = some (source.read first second) := by
  obtain ⟨source, listed, resolved⟩ :=
    exists_getElem?_of_mapM (ofInstruction_eq_ok laidOut).2 found
  have inside : index < instr.fieldNames.length := by
    rw [instr.length_fieldNames]
    exact (List.getElem?_eq_some_iff.mp found).1
  have named := List.getElem?_eq_getElem inside
  have field : (layout.read first second).fields[index]? =
      some ⟨instr.fieldNames[index], source.read first second⟩ := by
    rw [fields_read laidOut, List.getElem?_zipWith, named, listed]
  refine ⟨_, source, named, resolved, field, ?_⟩
  apply Operation.field?_of_getElem? _ field
  rw [map_name_read laidOut]
  exact instr.nodup_fieldNames

end Layout

theorem DecisionTree.lookup_lt {instructions : List Instruction} {word : Word} {index : Nat}
    (hit : (build instructions).lookup word = some index) : index < instructions.length := by
  have leaf := DecisionNode.mem_leaves_of_lookup (BitVec.allOnes 16) _ hit
  have placed := (DecisionNode.perm_leaves_ambiguities (BitVec.allOnes 16)
    (Candidate.ofInstructions instructions)).mem_iff.mp (List.mem_append_left _ leaf)
  rw [Candidate.map_index_ofInstructions] at placed
  exact List.mem_range.mp placed

namespace Decoder

variable {doc : Document} {decoder : Decoder} {first : Word}

theorem ofDocument_eq_ok (made : ofDocument doc = .ok decoder) :
    doc.instructions.mapM Layout.ofInstruction = .ok decoder.main ∧
      doc.extensions.mapM Layout.ofInstruction = .ok decoder.extensions ∧
      decoder.tree = .build doc.instructions ∧ decoder.table = .build doc.extensions ∧
      decoder.mainNop = doc.instruction? fallbackName ∧
      decoder.extensionNop = doc.extension? fallbackName := by
  unfold ofDocument at made
  cases main : doc.instructions.mapM Layout.ofInstruction with
  | error fault => simp [main, bind, Except.bind] at made
  | ok layouts =>
    cases extensions : doc.extensions.mapM Layout.ofInstruction with
    | error fault => simp [main, extensions, bind, Except.bind] at made
    | ok bytes =>
      simp only [main, extensions, bind, Except.bind, pure, Except.pure] at made
      cases made
      exact ⟨rfl, rfl, rfl, rfl, rfl, rfl⟩

theorem tree_of_ofDocument (made : ofDocument doc = .ok decoder) :
    decoder.tree = .build doc.instructions :=
  (ofDocument_eq_ok made).2.2.1

/-- A document all of whose operands have sources has a decoder. -/
theorem exists_of_resolveAll
    (resolved : ∀ instr ∈ doc.instructions ++ doc.extensions,
      ∃ sources, OperandSource.resolveAll instr = .ok sources) :
    ∃ decoder, ofDocument doc = .ok decoder := by
  have layouts (instr : Instruction) (member : instr ∈ doc.instructions ++ doc.extensions) :
      ∃ layout, Layout.ofInstruction instr = .ok layout := by
    obtain ⟨sources, found⟩ := resolved instr member
    exact ⟨⟨instr, sources⟩, by rw [Layout.ofInstruction, found]; rfl⟩
  obtain ⟨main, mainMade⟩ := exists_mapM_eq_ok Layout.ofInstruction fun instr member =>
    layouts instr (List.mem_append_left doc.extensions member)
  obtain ⟨bytes, bytesMade⟩ := exists_mapM_eq_ok Layout.ofInstruction fun instr member =>
    layouts instr (List.mem_append_right doc.instructions member)
  unfold ofDocument
  rw [mainMade, bytesMade]
  exact ⟨_, rfl⟩

/-- No operand of an accepted spec lies in two words. -/
theorem whole_of_loadText {loader : Loader} {path source : String}
    (accepted : (loader.loadText path source).value.1 = .ok doc) :
    ∀ instr ∈ doc.instructions ++ doc.extensions, instr.straddling = [] := by
  obtain ⟨read, -, whole⟩ := Loader.loadText_eq_ok accepted
  have formed := Spec.wellFormed_of_parse read
  intro instr member
  rcases List.mem_append.mp member with main | extension
  · exact whole instr main
  · simp [Instruction.straddling, (formed.extension instr extension).2]

/-- Every accepted spec has a decoder. -/
theorem exists_of_loadText {loader : Loader} {path source : String}
    (accepted : (loader.loadText path source).value.1 = .ok doc) :
    ∃ decoder, ofDocument doc = .ok decoder :=
  exists_of_resolveAll fun instr member =>
    OperandSource.exists_resolveAll (whole_of_loadText accepted instr member)

/-- A word that the tree knows decodes to the instruction at the leaf. -/
theorem decodeMain_of_lookup (made : ofDocument doc = .ok decoder) {index : Nat}
    (hit : (DecisionTree.build doc.instructions).lookup first = some index) (second : Word) :
    ∃ instr layout, doc.instructions[index]? = some instr ∧
      Layout.ofInstruction instr = .ok layout ∧
      decoder.decodeMain first second = layout.read first second := by
  have mains := (ofDocument_eq_ok made).1
  have inside := DecisionTree.lookup_lt hit
  have found := List.getElem?_eq_getElem inside
  obtain ⟨layout, listed, laidOut⟩ := exists_getElem?_of_mapM mains found
  refine ⟨_, layout, found, laidOut, ?_⟩
  rw [decodeMain, tree_of_ofDocument made, hit, Option.bind_some, listed]

theorem decodeMain_of_lookup_eq_none (made : ofDocument doc = .ok decoder)
    (missed : (DecisionTree.build doc.instructions).lookup first = none) (second : Word) :
    decoder.decodeMain first second = .fallback decoder.mainNop := by
  rw [decodeMain, tree_of_ofDocument made, missed, Option.bind_none]

/-- The instruction behind a decoded word, or behind the fallback, is a main instruction. -/
theorem mem_of_instruction? (made : ofDocument doc = .ok decoder) {second : Word}
    {instr : Instruction}
    (found : (decoder.decodeMain first second).instruction? = some instr) :
    instr ∈ doc.instructions := by
  cases hit : (DecisionTree.build doc.instructions).lookup first with
  | some index =>
    obtain ⟨other, layout, listed, laidOut, decoded⟩ := decodeMain_of_lookup made hit second
    rw [decoded, Layout.instruction?_read laidOut] at found
    cases found
    exact List.mem_of_getElem? listed
  | none =>
    rw [decodeMain_of_lookup_eq_none made hit, Operation.instruction?,
      (ofDocument_eq_ok made).2.2.2.2.1] at found
    exact List.mem_of_find?_eq_some found

end Decoder

end DspIsa
