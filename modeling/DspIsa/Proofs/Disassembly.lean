import DspIsa.Listing
import DspIsa.Proofs.RoundTrip

/-! Listing what was assembled. An instruction is decoded together with the word behind it, which
may belong to the next one; it reads that word only where its own encoding has two. -/
namespace DspIsa

namespace ByteOrder

theorem decode_encode (order : ByteOrder) (word : Word) (rest : List UInt8) :
    order.words (order.encode word ++ rest) = word :: order.words rest := by
  have whole : word.extractLsb' 8 8 ++ word.extractLsb' 0 8 = word := by
    apply BitVec.eq_of_getLsbD_eq
    intro bit inside
    rw [BitVec.getLsbD_append, BitVec.getLsbD_extractLsb', BitVec.getLsbD_extractLsb']
    by_cases low : bit < 8
    · simp [low]
    · have high : bit - 8 < 8 := by omega
      have place : 8 + (bit - 8) = bit := by omega
      simp [low, high, place]
  cases order <;> simp [encode, words, decode, whole]

/-- Reading undoes writing, and a stray byte behind the words is not read. -/
theorem words_encodeWords (order : ByteOrder) (words : List Word) (stray : Option UInt8) :
    order.words (order.encodeWords words ++ stray.toList) = words := by
  induction words with
  | nil => cases stray <;> rfl
  | cons word rest ih =>
    rw [encodeWords] at ih ⊢
    rw [List.flatMap_cons, List.append_assoc, decode_encode, ih]

end ByteOrder

namespace Operation

variable {op : Operation}

theorem render_eq (op : Operation) :
    op.render = match op.fields.map FieldValue.render with
      | [] => op.name
      | texts => op.name ++ " " ++ ", ".intercalate texts := by
  unfold render
  cases op.fields <;> rfl

theorem isFallback_of_wordCount (double : op.wordCount = 2) : op.isFallback = false := by
  cases op with
  | decoded instr fields => rfl
  | fallback nop => cases double

theorem wordCount_eq_one (single : op.wordCount ≠ 2) : op.wordCount = 1 := by
  rw [wordCount] at single ⊢
  split
  · rename_i wide
    exact absurd (if_pos wide) single
  · rfl

end Operation

namespace Decoder

/-- What a listing shows behind the main instruction: the extension in a word that has one. -/
def extensionText (decoder : Decoder) (first : Word) : String :=
  if extensionNibble ≤ (first >>> 12).toNat then " : " ++ (decoder.decodeExtension first).render
  else ""

theorem main_decode (decoder : Decoder) (first second : Word) :
    (decoder.decode first second).main = decoder.decodeMain first second := by
  unfold decode
  split <;> rfl

theorem render_decode (decoder : Decoder) (first second : Word) :
    (decoder.decode first second).render =
      (decoder.decodeMain first second).render ++ decoder.extensionText first := by
  unfold decode extensionText Decoded.render
  split <;> simp [String.append_assoc]

section

variable {decoder : Decoder} {first : Word}

theorem listWords_one (address : Address) (rest : List Word)
    (single : (decoder.decodeMain first (rest.headD 0#16)).wordCount ≠ 2) :
    decoder.listWords address (first :: rest) =
      (decoder.listWords (address + 1#64) rest).cons
        ⟨address, [first], (decoder.decode first (rest.headD 0#16)).render,
          (decoder.decodeMain first (rest.headD 0#16)).isFallback⟩ := by
  rw [listWords.eq_def]
  simp only [main_decode, single, ↓reduceIte]

theorem listWords_two (address : Address) (second : Word) (rest : List Word)
    (double : (decoder.decodeMain first second).wordCount = 2) :
    decoder.listWords address (first :: second :: rest) =
      (decoder.listWords (address + 2#64) rest).cons
        ⟨address, [first, second], (decoder.decode first second).render,
          (decoder.decodeMain first second).isFallback⟩ := by
  rw [listWords.eq_def]
  simp only [main_decode, List.headD_cons, double, ↓reduceIte]

/-- A two-word instruction at the last word of an image is cut off. -/
theorem listWords_cut (address : Address)
    (double : (decoder.decodeMain first 0#16).wordCount = 2) :
    decoder.listWords address [first] =
      ⟨[], some ⟨address, (decoder.decodeMain first 0#16).name⟩⟩ := by
  rw [listWords.eq_def]
  simp only [main_decode, List.headD_nil, double, ↓reduceIte]

end

end Decoder

/-- An instruction of a program, with one value per operand. -/
structure ProgramEntry where
  instruction : Instruction
  values : List Code
  deriving DecidableEq, Repr

namespace ProgramEntry

def split (entry : ProgramEntry) : Word × Word :=
  entry.instruction.splitWords (entry.instruction.encode entry.values)

/-- The words of the encoding, in the order of the stream. -/
def words (entry : ProgramEntry) : List Word :=
  if entry.instruction.width = .bits32 then [entry.split.1, entry.split.2] else [entry.split.1]

/-- The fields as a listing shows them, each value cut to the width of its operand. -/
def fieldTexts (entry : ProgramEntry) : List String :=
  (entry.instruction.fieldNames.zip entry.instruction.operands).zipIdx.map
    fun ((name, operand), k) =>
      name ++ "=" ++ Text.markedHex 1 ((entry.values.getD k 0#32).toNat % 2 ^ operand.width)

def text (entry : ProgramEntry) : String :=
  match entry.fieldTexts with
  | [] => entry.instruction.name
  | texts => entry.instruction.name ++ " " ++ ", ".intercalate texts

/-- The line of a listing for an entry. -/
def line (decoder : Decoder) (address : Address) (entry : ProgramEntry) : ListingLine where
  address
  words := entry.words
  text := entry.text ++ decoder.extensionText entry.split.1
  isFallback := false

section

variable {entry : ProgramEntry} {layout : Layout} {second : Word}

theorem toNat_read_split (laid : entry.instruction.WellLaid) {index : Nat} {operand : Operand}
    {source : OperandSource} (found : entry.instruction.operands[index]? = some operand)
    (resolved : OperandSource.resolve entry.instruction operand = .ok source)
    (behind : entry.instruction.width = .bits32 → second = entry.split.2) :
    (source.read entry.split.1 second).toNat =
      (entry.values.getD index 0#32).toNat % 2 ^ operand.width := by
  have own := Instruction.toNat_read_encode laid found resolved entry.values
  by_cases wide : entry.instruction.width = .bits32
  · rw [behind wide]
    exact own
  · rw [OperandSource.read_eq_of_width resolved wide _ second entry.split.2]
    exact own

/-- What is read from the words of an entry shows its fields, whatever word is behind it. -/
theorem map_render_fields_read (laid : entry.instruction.WellLaid)
    (laidOut : Layout.ofInstruction entry.instruction = .ok layout)
    (behind : entry.instruction.width = .bits32 → second = entry.split.2) :
    (layout.read entry.split.1 second).fields.map FieldValue.render = entry.fieldTexts := by
  have names := Layout.map_name_read laidOut entry.split.1 second
  have sizes := congrArg List.length names
  rw [List.length_map, entry.instruction.length_fieldNames] at sizes
  apply List.ext_getElem?
  intro k
  rw [fieldTexts, List.getElem?_map, List.getElem?_map, List.getElem?_zipIdx]
  cases listed : entry.instruction.operands[k]? with
  | none =>
    have outside := List.getElem?_eq_none_iff.mp listed
    rw [List.getElem?_eq_none (by omega), List.getElem?_eq_none]
    · rfl
    · rw [List.length_zip]
      omega
  | some operand =>
    obtain ⟨name, source, ident, resolved, field, -⟩ :=
      Layout.exists_field_read laidOut listed entry.split.1 second
    have pair : (entry.instruction.fieldNames.zip entry.instruction.operands)[k]? =
        some (name, operand) := List.getElem?_zip_eq_some.mpr ⟨ident, listed⟩
    rw [field, pair]
    simp only [Option.map_some, FieldValue.render, Nat.zero_add,
      toNat_read_split laid listed resolved behind]

theorem render_read (laid : entry.instruction.WellLaid)
    (laidOut : Layout.ofInstruction entry.instruction = .ok layout)
    (behind : entry.instruction.width = .bits32 → second = entry.split.2) :
    (layout.read entry.split.1 second).render = entry.text := by
  have name : (layout.read entry.split.1 second).name = entry.instruction.name := by
    simp [Operation.name, Layout.instruction?_read laidOut]
  rw [Operation.render_eq, map_render_fields_read laid laidOut behind, name]
  rfl

end

end ProgramEntry

namespace Decoder

section

variable {doc : Document} {decoder : Decoder}

theorem decode_split (formed : doc.WellFormed) (made : ofDocument doc = .ok decoder)
    (silent : (DecisionTree.build doc.instructions).diagnostics = [])
    {index : Nat} {entry : ProgramEntry}
    (found : doc.instructions[index]? = some entry.instruction) (second : Word)
    (behind : entry.instruction.width = .bits32 → second = entry.split.2) :
    (decoder.decodeMain entry.split.1 second).isFallback = false ∧
      (decoder.decodeMain entry.split.1 second).width = entry.instruction.width ∧
      (decoder.decodeMain entry.split.1 second).render = entry.text := by
  obtain ⟨laid, main⟩ := formed.main entry.instruction (List.mem_of_getElem? found)
  have hit := DecisionTree.lookup_of_silent silent found
    (Instruction.agrees_encode laid main entry.values)
  obtain ⟨layout, laidOut, decoded⟩ := decodeMain_encode made found second hit
  change decoder.decodeMain entry.split.1 second = layout.read entry.split.1 second at decoded
  rw [decoded]
  refine ⟨rfl, ?_, ProgramEntry.render_read laid laidOut behind⟩
  exact congrArg Instruction.width (Layout.ofInstruction_eq_ok laidOut).1

/-- One step of the cursor: the words of an entry give its line and leave the words behind it. -/
theorem listWords_words (formed : doc.WellFormed) (made : ofDocument doc = .ok decoder)
    (silent : (DecisionTree.build doc.instructions).diagnostics = [])
    {index : Nat} {entry : ProgramEntry}
    (found : doc.instructions[index]? = some entry.instruction) (address : Address)
    (rest : List Word) :
    decoder.listWords address (entry.words ++ rest) =
      (decoder.listWords (address + BitVec.ofNat 64 entry.words.length) rest).cons
        (entry.line decoder address) := by
  by_cases wide : entry.instruction.width = .bits32
  · obtain ⟨known, width, text⟩ :=
      decode_split formed made silent found entry.split.2 fun _ => rfl
    have double : (decoder.decodeMain entry.split.1 entry.split.2).wordCount = 2 := by
      rw [Operation.wordCount, width, if_pos wide]
    have words : entry.words = [entry.split.1, entry.split.2] := if_pos wide
    rw [ProgramEntry.line, words]
    exact (listWords_two address entry.split.2 rest double).trans (by
      rw [render_decode, known, text]
      rfl)
  · obtain ⟨known, width, text⟩ :=
      decode_split formed made silent found (rest.headD 0#16) fun two => absurd two wide
    have single : (decoder.decodeMain entry.split.1 (rest.headD 0#16)).wordCount ≠ 2 := by
      rw [Operation.wordCount, width, if_neg wide]
      decide
    have words : entry.words = [entry.split.1] := if_neg wide
    rw [ProgramEntry.line, words]
    exact (listWords_one address rest single).trans (by
      rw [render_decode, known, text]
      rfl)

/-- The words of a whole program are listed entry by entry. -/
theorem listWords_flatMap_words (formed : doc.WellFormed) (made : ofDocument doc = .ok decoder)
    (silent : (DecisionTree.build doc.instructions).diagnostics = []) (entries : List ProgramEntry)
    (known : ∀ entry ∈ entries, entry.instruction ∈ doc.instructions) (base : Address) :
    (decoder.listWords base (entries.flatMap ProgramEntry.words)).truncation = none ∧
      (decoder.listWords base (entries.flatMap ProgramEntry.words)).lines.length =
        entries.length ∧
      ∀ (k : Nat) (entry : ProgramEntry), entries[k]? = some entry →
        (decoder.listWords base (entries.flatMap ProgramEntry.words)).lines[k]? =
          some (entry.line decoder (base +
            BitVec.ofNat 64 ((entries.take k).flatMap ProgramEntry.words).length)) := by
  induction entries generalizing base with
  | nil => exact ⟨rfl, rfl, fun k entry found => by simp at found⟩
  | cons first rest ih =>
    obtain ⟨index, found⟩ := List.getElem?_of_mem (known first List.mem_cons_self)
    obtain ⟨whole, size, lines⟩ := ih (fun entry member => known entry (.tail _ member))
      (base + BitVec.ofNat 64 first.words.length)
    rw [List.flatMap_cons, listWords_words formed made silent found]
    refine ⟨whole, congrArg (· + 1) size, fun k entry listed => ?_⟩
    cases k with
    | zero =>
      cases listed
      simp [Listing.cons]
    | succ k =>
      rw [Listing.cons, List.getElem?_cons_succ, lines k entry listed, List.take_succ_cons,
        List.flatMap_cons, List.length_append, BitVec.ofNat_add, BitVec.add_assoc]

end

/-- On an accepted spec whose tree reports nothing, the image of a program, with or without a stray
byte behind it, is listed as that program: one line per entry, at the address of its first word. -/
theorem disassemble_encodeWords {loader : Loader} {path source : String} {doc : Document}
    (accepted : (loader.loadText path source).value.1 = .ok doc)
    (silent : (DecisionTree.build doc.instructions).diagnostics = [])
    (program : List (Fin doc.instructions.length × List Code)) (order : ByteOrder)
    (base : Address) (stray : Option UInt8) :
    ∃ decoder, ofDocument doc = .ok decoder ∧
      let entries := program.map fun (index, values) =>
        (⟨doc.instructions[index], values⟩ : ProgramEntry)
      let image := order.encodeWords (entries.flatMap ProgramEntry.words) ++ stray.toList
      let listing := decoder.disassemble order base image
      listing.truncation = none ∧ listing.lines.length = program.length ∧
      ∀ k entry, entries[k]? = some entry → ∃ line, listing.lines[k]? = some line ∧
        line.words = entry.words ∧ line.isFallback = false ∧
        line.address =
          base + BitVec.ofNat 64 ((entries.take k).flatMap ProgramEntry.words).length ∧
        line.text = entry.text ++ decoder.extensionText entry.split.1 := by
  obtain ⟨decoder, made⟩ := exists_of_loadText accepted
  have formed := Spec.wellFormed_of_parse (Loader.loadText_eq_ok accepted).1
  refine ⟨decoder, made, ?_⟩
  intro entries image listing
  have known (entry : ProgramEntry) (member : entry ∈ entries) :
      entry.instruction ∈ doc.instructions := by
    obtain ⟨⟨index, values⟩, -, rfl⟩ := List.mem_map.mp member
    exact List.getElem_mem index.isLt
  have words : listing = decoder.listWords base (entries.flatMap ProgramEntry.words) := by
    rw [← ByteOrder.words_encodeWords order (entries.flatMap ProgramEntry.words) stray]
    rfl
  obtain ⟨whole, size, lines⟩ := listWords_flatMap_words formed made silent entries known base
  rw [← words] at whole size lines
  refine ⟨whole, by rw [size, List.length_map], fun k entry listed => ?_⟩
  exact ⟨_, lines k entry listed, rfl, rfl, rfl, rfl⟩

/-- A two-word instruction in front of a one-word one. -/
def immediateThenNothing : List ProgramEntry :=
  [⟨loadImmediate, [0x12345#32, 0x3#32]⟩, ⟨noOperation, [0x7#32]⟩]

theorem disassemble_encodeWords_immediateThenNothing :
    ∃ doc decoder, (Loader.new.loadText "mixed" mixedWidths).value.1 = .ok doc ∧
      (DecisionTree.build doc.instructions).diagnostics = [] ∧ ofDocument doc = .ok decoder ∧
      let image := ByteOrder.little.encodeWords (immediateThenNothing.flatMap ProgramEntry.words)
      let listing := decoder.disassemble .little (BitVec.allOnes 64) (image ++ [0xAB])
      listing.truncation = none ∧ listing.lines.length = 2 ∧
      ∃ line, listing.lines[1]? = some line ∧ line.words = [0x0007#16] ∧
        line.isFallback = false ∧ line.address = 1#64 ∧ line.text = "NOP x=0x7" := by
  obtain ⟨⟨path, digest, instructions, extensions⟩, accepted, same⟩ := exists_mixedWidths
  cases same
  have silent : (DecisionTree.build [noOperation, loadImmediate]).diagnostics = [] := by
    rw [DecisionTree.diagnostics_eq_nil_iff]
    cbv
  obtain ⟨decoder, made, whole, size, lines⟩ := disassemble_encodeWords accepted silent
    [(1, [0x12345#32, 0x3#32]), (0, [0x7#32])] .little (BitVec.allOnes 64) (some 0xAB)
  obtain ⟨line, listed, words, known, address, text⟩ := lines 1 ⟨noOperation, [0x7#32]⟩ rfl
  refine ⟨_, decoder, accepted, silent, made, whole, size, line, listed, words, known, ?_, ?_⟩
  · have before : ((immediateThenNothing.take 1).flatMap ProgramEntry.words).length = 2 := by decide
    rw [address]
    exact congrArg (fun words => BitVec.allOnes 64 + BitVec.ofNat 64 words) before
  · have quiet : decoder.extensionText (ProgramEntry.split ⟨noOperation, [0x7#32]⟩).1 = "" :=
      if_neg (by decide)
    rw [text, quiet]
    decide +kernel

end Decoder

end DspIsa
