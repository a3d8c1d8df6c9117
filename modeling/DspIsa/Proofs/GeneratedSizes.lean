import DspIsa.Proofs.GeneratedDecoder
import DspIsa.Proofs.SizeText
import DspIsa.Proofs.Sweep

/-! The widths that generated instructions state, and those that the reference decoder steps by. A
value states the width of its instruction, the fallback that of the no-op it stands for. The
reference decoder gives the fallback one word whatever its no-op looks like, so the two differ on
unknown words where the no-op has two. -/
namespace DspIsa

/-- The addresses that a consumer reads from, for one that steps from each instruction to the next
over the given number of words. -/
def visits (step : Word → Word → Nat) (address : Address) : List Word → List Address
  | [] => []
  | first :: rest =>
    let count := step first (rest.headD 0#16)
    address :: visits step (address + BitVec.ofNat 64 count) (rest.drop (count - 1))
termination_by words => words.length
decreasing_by
  rw [List.length_drop, List.length_cons]
  omega

namespace Listing

/-- The addresses of the lines, and of the instruction that the end of the image cuts in two. -/
def addresses (listing : Listing) : List Address :=
  listing.lines.map (·.address) ++ (listing.truncation.map (·.address)).toList

theorem addresses_cons (line : ListingLine) (listing : Listing) :
    (listing.cons line).addresses = line.address :: listing.addresses := rfl

end Listing

namespace Operation

/-- The width in bits of the operation's instruction; a missing no-op has one word. -/
def statedBits (op : Operation) : Nat := (op.instruction?.map (·.width.bits)).getD 16

variable {op : Operation}

/-- The operation takes the width of its instruction, unless it is the fallback and its no-op has
two words. -/
theorem statedBits_eq_iff (main : ∀ instr, op.instruction? = some instr → instr.width ≠ .bits8) :
    op.statedBits = op.width.bits ↔
      ¬ (op.isFallback = true ∧ ∃ nop, op.instruction? = some nop ∧ nop.width = .bits32) := by
  cases op with
  | decoded instr fields => simp [statedBits, instruction?, width, isFallback]
  | fallback nop =>
    cases nop with
    | none => simp [statedBits, instruction?, width, isFallback, Width.bits]
    | some nop =>
      have narrow := main nop rfl
      cases size : nop.width with
      | bits8 => exact absurd size narrow
      | bits16 => simp [statedBits, instruction?, width, isFallback, size, Width.bits]
      | bits32 => simp [statedBits, instruction?, width, isFallback, size, Width.bits]

theorem width_ne_bits8 (main : ∀ instr, op.instruction? = some instr → instr.width ≠ .bits8) :
    op.width ≠ .bits8 := by
  cases op with
  | decoded instr fields => exact main instr rfl
  | fallback nop => simp [width]

theorem bits_width_div (main : op.width ≠ .bits8) : op.width.bits / 16 = op.wordCount := by
  rw [wordCount]
  cases size : op.width with
  | bits8 => exact absurd size main
  | bits16 => rfl
  | bits32 => rfl

end Operation

theorem visits_cons (step : Word → Word → Nat) (address : Address) (first : Word)
    (rest : List Word) :
    visits step address (first :: rest) =
      address :: visits step (address + BitVec.ofNat 64 (step first (rest.headD 0#16)))
        (rest.drop (step first (rest.headD 0#16) - 1)) := by
  rw [visits]

namespace Decoder

variable {doc : Document} {decoder : Decoder} {step : Word → Word → Nat}

/-- The fallback stands for the first main instruction with the name of the no-op. -/
theorem instruction?_of_isFallback (made : ofDocument doc = .ok decoder) {first second : Word}
    (fallback : (decoder.decodeMain first second).isFallback = true) :
    (decoder.decodeMain first second).instruction? = doc.instruction? fallbackName := by
  cases hit : (DecisionTree.build doc.instructions).lookup first with
  | some index =>
    obtain ⟨instr, layout, -, -, decoded⟩ := decodeMain_of_lookup made hit second
    rw [decoded] at fallback
    cases fallback
  | none =>
    rw [decodeMain_of_lookup_eq_none made hit]
    exact (ofDocument_eq_ok made).2.2.2.2.1

/-- A consumer that steps over the words of every operation visits the addresses of the listing. It
may step otherwise over unknown words if the listing has none. -/
theorem visits_eq_addresses (address : Address) (words : List Word)
    (known : ∀ first second, (decoder.decodeMain first second).isFallback = false →
      step first second = (decoder.decodeMain first second).wordCount)
    (unknown : (∀ first second, step first second = (decoder.decodeMain first second).wordCount) ∨
      ∀ line ∈ (decoder.listWords address words).lines, line.isFallback = false) :
    visits step address words = (decoder.listWords address words).addresses := by
  induction address, words using decoder.listWords_induction with
  | done address => rw [visits, listWords]; rfl
  | cut address last double ends =>
    rw [visits_cons, List.drop_nil, visits, ends]
    rfl
  | line address first behind inside ih =>
    rw [listWords_line inside] at unknown ⊢
    have stepped : step first (behind.headD 0#16) = decoder.countBefore first behind := by
      rw [countBefore, main_decodeBefore]
      rcases unknown with every | clean
      · exact every first _
      · have fallback := clean _ List.mem_cons_self
        rw [lineBefore, main_decodeBefore] at fallback
        exact known first _ fallback
    rw [visits_cons, stepped, Listing.addresses_cons,
      ← List.drop_cons (decoder.countBefore_pos first behind)]
    refine congrArg _ (ih ?_)
    exact unknown.imp_right fun clean => (List.forall_mem_cons.mp clean).2

end Decoder

namespace Generated

namespace Family

variable {claim : TypeNames → String → String × TypeNames} {instructions : List Instruction}
  {types : List OpcodeType} {names before after : TypeNames}

/-- The no-op of a family is as wide as the first instruction with its name, and has one word where
there is none. -/
theorem bits_nop_complete (declared : OpcodeType.Declared before instructions types after) :
    (complete claim names instructions types).1.nop.bits =
      ((instructions.find? (·.name == fallbackName)).map (·.width.bits)).getD 16 := by
  have firsts : (instructions.zip types).map Prod.fst = instructions :=
    List.map_fst_zip (Nat.le_of_eq declared.each.length_eq)
  have search : instructions.find? (·.name == fallbackName) =
      ((instructions.zip types).find? fun entry => entry.1.name == fallbackName).map Prod.fst := by
    conv => lhs; rw [← firsts, List.find?_map]
    rfl
  rw [search, complete]
  cases found : (instructions.zip types).find? fun entry => entry.1.name == fallbackName with
  | none => rfl
  | some entry =>
    have listed := List.mem_of_find?_eq_some found
    have made := (List.forall₂_iff_zip.mp declared.each).2 listed
    obtain ⟨sources, -, shape⟩ := OpcodeType.ofInstruction_eq_ok made
    exact congrArg OpcodeType.bits shape

end Family

namespace Blueprint

variable {doc : Document} {blueprint : Blueprint} {decoder : Decoder}

theorem bits_nop (planned : ofDocument doc = .ok blueprint) :
    blueprint.main.nop.bits =
      ((doc.instruction? fallbackName).map (·.width.bits)).getD 16 := by
  obtain ⟨mainTypes, names, extensionTypes, after, main, -, rfl⟩ := exists_declared planned
  exact Family.bits_nop_complete
    (OpcodeType.declared_of_declare OpcodeType.naming_claimMain main)

/-- The type of a value that agrees with the reference decoder states the width of the decoded
instruction, or of the no-op. -/
theorem Agrees.size?_eq {first second : Word} {value : Source.Value}
    (agrees : blueprint.Agrees decoder first second value)
    (planned : ofDocument doc = .ok blueprint) (follows : blueprint.Follows doc)
    (made : Decoder.ofDocument doc = .ok decoder) :
    Source.size? (blueprint.main.types.map .ofType) value.type =
      some (decoder.decodeMain first second).statedBits := by
  have stated (type : OpcodeType) (member : type ∈ blueprint.main.types) :=
    Source.size?_map_ofType follows.named.nodup member
  unfold Agrees Family.Agrees at agrees
  rw [follows.tree] at agrees
  cases hit : (DecisionTree.build doc.instructions).lookup first with
  | some index =>
    simp only [hit] at agrees
    obtain ⟨type, listed, ident, -⟩ := agrees
    obtain ⟨instr, layout, found, laidOut, decoded⟩ :=
      Decoder.decodeMain_of_lookup made hit second
    obtain ⟨other, same, typed⟩ := follows.each index instr found
    cases listed.symm.trans same
    obtain ⟨sources, -, shape⟩ := OpcodeType.ofInstruction_eq_ok typed
    rw [ident, stated type (List.mem_of_getElem? listed), decoded, Operation.statedBits,
      Layout.instruction?_read laidOut]
    exact congrArg (fun type => some (OpcodeType.bits type)) shape
  | none =>
    simp only [hit] at agrees
    rw [agrees.1, stated _ follows.named.nop, bits_nop planned,
      Decoder.decodeMain_of_lookup_eq_none made hit, Operation.statedBits, Operation.instruction?,
      (Decoder.ofDocument_eq_ok made).2.2.2.2.1]

/-- For an accepted spec and any options, the dispatch functions and the width method stand in the
emitted text. They give every two words one value, and that value the width of the decoded
instruction. -/
theorem exists_sizes {loader : Loader} {path source : String}
    (accepted : (loader.loadText path source).value.1 = .ok doc) (options : Options) :
    ∃ blueprint decoder functions sizes, ofDocument doc = .ok blueprint ∧
      Decoder.ofDocument doc = .ok decoder ∧
      Emits doc options [helperText, (blueprint.program options).functionText,
        (blueprint.program options).sizeText] ∧
      Source.functions? (blueprint.program options).dispatchText = some functions ∧
      Source.sizes? (blueprint.program options).sizeText = some sizes ∧
      ∀ first second, ∃ value,
        Source.size? sizes value.type = some (decoder.decodeMain first second).statedBits ∧
        ∀ other, Source.Yields ⟨blueprint.main.types, functions⟩ first second
          (.call "decode_instruction") other ↔ other = value := by
  obtain ⟨blueprint, planned, follows⟩ := exists_ofDocument (Decoder.whole_of_loadText accepted)
  obtain ⟨decoder, made⟩ := Decoder.exists_of_loadText accepted
  have formed := Spec.wellFormed_of_parse (Loader.loadText_eq_ok accepted).1
  have functions : Source.functions? (blueprint.program options).dispatchText =
      some ((treeFunctions blueprint.main blueprint.tree.root).map .ofDispatchFunction) :=
    Source.functions?_dispatchText (legible_treeFunctions follows.legible blueprint.tree.root)
  have sizes : Source.sizes? (blueprint.program options).sizeText =
      some (blueprint.main.types.map .ofType) := Source.sizes?_sizeText follows.named.isName
  have emitted : Emits doc options [helperText, (blueprint.program options).functionText,
      (blueprint.program options).sizeText] := by
    refine emits planned (List.forall_mem_cons.mpr ⟨Program.helperText_isInfix _, ?_⟩)
    exact List.forall_mem_cons.mpr ⟨Program.functionText_isInfix _,
      List.forall_mem_singleton.mpr (Program.sizeText_isInfix _)⟩
  refine ⟨blueprint, decoder, _, _, planned, made, emitted, functions, sizes,
    fun first second => ?_⟩
  obtain ⟨value, agrees, unique⟩ := exists_value formed follows made first second
  exact ⟨value, agrees.size?_eq planned follows made, unique⟩

/-- For an accepted spec and any options, the emitted text gives every two words one instruction
with one width. It is the width of the reference decoder, except that an unknown word has two words
where the first main instruction with the name of the no-op has. So a consumer that steps by these
widths visits the addresses of every listing without unknown words, and of every listing of a spec
whose no-op has one word. -/
theorem size_eq_width_iff {loader : Loader} {path source : String}
    (accepted : (loader.loadText path source).value.1 = .ok doc) (options : Options) :
    ∃ blueprint decoder functions sizes, ∃ size : Word → Word → Nat,
      ofDocument doc = .ok blueprint ∧ Decoder.ofDocument doc = .ok decoder ∧
      Emits doc options [helperText, (blueprint.program options).functionText,
        (blueprint.program options).sizeText] ∧
      Source.functions? (blueprint.program options).dispatchText = some functions ∧
      Source.sizes? (blueprint.program options).sizeText = some sizes ∧
      (∀ first second, ∃ value, Source.size? sizes value.type = some (size first second) ∧
        ∀ other, Source.Yields ⟨blueprint.main.types, functions⟩ first second
          (.call "decode_instruction") other ↔ other = value) ∧
      (∀ first second, size first second = (decoder.decodeMain first second).width.bits ↔
        ¬ ((decoder.decodeMain first second).isFallback = true ∧
          ∃ nop, doc.instruction? fallbackName = some nop ∧ nop.width = .bits32)) ∧
      ∀ order base image,
        ((∀ nop, doc.instruction? fallbackName = some nop → nop.width ≠ .bits32) ∨
          ∀ line ∈ (decoder.disassemble order base image).lines, line.isFallback = false) →
        visits (fun first second => size first second / 16) base (order.words image) =
          (decoder.disassemble order base image).addresses := by
  obtain ⟨blueprint, decoder, functions, sizes, planned, made, emitted, dispatch, method,
    stated⟩ := exists_sizes accepted options
  have formed := Spec.wellFormed_of_parse (Loader.loadText_eq_ok accepted).1
  have main (first second : Word) (instr : Instruction)
      (found : (decoder.decodeMain first second).instruction? = some instr) :
      instr.width ≠ .bits8 :=
    (formed.main instr (Decoder.mem_of_instruction? made found)).2
  have agrees (first second : Word) :
      (decoder.decodeMain first second).statedBits =
          (decoder.decodeMain first second).width.bits ↔
        ¬ ((decoder.decodeMain first second).isFallback = true ∧
          ∃ nop, doc.instruction? fallbackName = some nop ∧ nop.width = .bits32) := by
    rw [Operation.statedBits_eq_iff (main first second)]
    refine not_congr (and_congr_right fun fallback => ?_)
    rw [Decoder.instruction?_of_isFallback made fallback]
  have stepped (first second : Word) (same : (decoder.decodeMain first second).statedBits =
      (decoder.decodeMain first second).width.bits) :
      (decoder.decodeMain first second).statedBits / 16 =
        (decoder.decodeMain first second).wordCount := by
    rw [same, Operation.bits_width_div (Operation.width_ne_bits8 (main first second))]
  refine ⟨blueprint, decoder, functions, sizes, _, planned, made, emitted, dispatch, method,
    stated, agrees, fun order base image harmless => ?_⟩
  refine Decoder.visits_eq_addresses base (order.words image) (fun first second known => ?_)
    (harmless.imp_left fun narrow first second => ?_)
  · refine stepped first second ((agrees first second).mpr fun wide => ?_)
    rw [known] at wide
    cases wide.1
  · refine stepped first second ((agrees first second).mpr ?_)
    rintro ⟨-, nop, found, wide⟩
    exact narrow nop found wide

open Decoder in
/-- A two-word instruction, and an unknown word, on a spec whose no-op has one word. -/
theorem size_eq_width_iff_mixedWidths :
    ∃ doc blueprint functions sizes, (Loader.new.loadText "mixed" mixedWidths).value.1 = .ok doc ∧
      ofDocument doc = .ok blueprint ∧
      Source.functions? (blueprint.program .standard).dispatchText = some functions ∧
      Source.sizes? (blueprint.program .standard).sizeText = some sizes ∧
      (∃ value, Source.Yields ⟨blueprint.main.types, functions⟩ 0x6001#16 0x2345#16
          (.call "decode_instruction") value ∧ Source.size? sizes value.type = some 32) ∧
      ∃ value, Source.Yields ⟨blueprint.main.types, functions⟩ 0x8000#16 0x2345#16
          (.call "decode_instruction") value ∧ Source.size? sizes value.type = some 16 := by
  obtain ⟨doc, accepted, instructions⟩ := exists_mixedWidths
  obtain ⟨blueprint, decoder, functions, sizes, size, planned, made, -, dispatch, method, stated,
    agrees, -⟩ := size_eq_width_iff accepted .standard
  have narrow : doc.instruction? fallbackName = some noOperation := by
    rw [Document.instruction?, instructions]
    decide
  have same (first second : Word) :
      size first second = (decoder.decodeMain first second).width.bits := by
    refine (agrees first second).mpr ?_
    rintro ⟨-, nop, found, wide⟩
    cases narrow.symm.trans found
    cases wide
  have hit : (DecisionTree.build doc.instructions).lookup 0x6001#16 = some 1 := by
    rw [instructions]
    cbv
  have missed : (DecisionTree.build doc.instructions).lookup 0x8000#16 = none := by
    rw [instructions]
    cbv
  refine ⟨doc, blueprint, functions, sizes, accepted, planned, dispatch, method, ?_, ?_⟩
  · obtain ⟨value, width, unique⟩ := stated 0x6001#16 0x2345#16
    obtain ⟨instr, layout, found, laidOut, decoded⟩ := decodeMain_of_lookup made hit 0x2345#16
    rw [instructions] at found
    cases found
    rw [same, decoded, Layout.read, (Layout.ofInstruction_eq_ok laidOut).1] at width
    exact ⟨value, (unique value).mpr rfl, width⟩
  · obtain ⟨value, width, unique⟩ := stated 0x8000#16 0x2345#16
    rw [same, decodeMain_of_lookup_eq_none made missed] at width
    exact ⟨value, (unique value).mpr rfl, width⟩

/-- A no-op of two words, and a one-word instruction. -/
def longNop : String :=
  "NOP * 00xx xxxx xxxx xxxx iiii iiii iiii iiii\nHALT * 01xx xxxx xxxx xxxx\n"

def longNoOperation : Instruction :=
  ⟨"NOP", "NOP", [⟨0, 15, 'i'⟩, ⟨16, 29, 'x'⟩], 0xC0000000#32, 0x00000000#32, .bits32,
    ⟨"long", ⟨1, 1⟩, ⟨1, 46⟩⟩⟩

def stop : Instruction :=
  ⟨"HALT", "HALT", [⟨0, 13, 'x'⟩], 0xC000#32, 0x4000#32, .bits16, ⟨"long", ⟨2, 1⟩, ⟨2, 27⟩⟩⟩

theorem exists_loadText_longNop :
    ∃ doc, (Loader.new.loadText "long" longNop).value.1 = .ok doc ∧
      doc.instructions = [longNoOperation, stop] ∧ doc.extensions = [] :=
  Loader.exists_loadText
    (by decide +kernel : ((Loader.new.loadText "long" longNop).value.1.toOption.map
      fun doc => (doc.instructions, doc.extensions)) = some ([longNoOperation, stop], []))

/-- An unknown word in front of a halt. The generated instruction has two words and steps over the
halt; the decoded operation has one, and the listing shows the halt. -/
theorem size_ne_width_longNop :
    ∃ doc blueprint decoder functions sizes value,
      (Loader.new.loadText "long" longNop).value.1 = .ok doc ∧
      ofDocument doc = .ok blueprint ∧ Decoder.ofDocument doc = .ok decoder ∧
      Emits doc .standard [helperText, (blueprint.program .standard).functionText,
        (blueprint.program .standard).sizeText] ∧
      Source.functions? (blueprint.program .standard).dispatchText = some functions ∧
      Source.sizes? (blueprint.program .standard).sizeText = some sizes ∧
      (∀ other, Source.Yields ⟨blueprint.main.types, functions⟩ 0x8000#16 0x4000#16
        (.call "decode_instruction") other ↔ other = value) ∧
      Source.size? sizes value.type = some 32 ∧
      (decoder.decodeMain 0x8000#16 0x4000#16).width.bits = 16 ∧
      visits (fun _ _ => 32 / 16) 0#64 [0x8000#16, 0x4000#16] = [0#64] ∧
      (decoder.listWords 0#64 [0x8000#16, 0x4000#16]).addresses = [0#64, 1#64] := by
  obtain ⟨doc, accepted, instructions, -⟩ := exists_loadText_longNop
  obtain ⟨blueprint, decoder, functions, sizes, planned, made, emitted, dispatch, method,
    stated⟩ := exists_sizes accepted .standard
  have missed : (DecisionTree.build doc.instructions).lookup 0x8000#16 = none := by
    rw [instructions]
    cbv
  have long : decoder.mainNop = some longNoOperation := by
    rw [(Decoder.ofDocument_eq_ok made).2.2.2.2.1, Document.instruction?, instructions]
    decide
  have hit : (DecisionTree.build doc.instructions).lookup 0x4000#16 = some 1 := by
    rw [instructions]
    cbv
  have unknown := Decoder.decodeMain_of_lookup_eq_none made missed 0x4000#16
  obtain ⟨instr, layout, found, laidOut, known⟩ := Decoder.decodeMain_of_lookup made hit 0#16
  rw [instructions] at found
  cases found
  have halts : (decoder.decodeMain 0x4000#16 0#16).wordCount ≠ 2 := by
    rw [known, Layout.read, (Layout.ofInstruction_eq_ok laidOut).1]
    simp [Operation.wordCount, Operation.width, stop]
  have passes : (decoder.decodeMain 0x8000#16 0x4000#16).wordCount ≠ 2 := by
    rw [unknown]
    simp [Operation.wordCount, Operation.width]
  obtain ⟨value, width, unique⟩ := stated 0x8000#16 0x4000#16
  rw [unknown, long] at width
  refine ⟨doc, blueprint, decoder, functions, sizes, value, accepted, planned, made, emitted,
    dispatch, method, unique, width, by rw [unknown]; rfl, ?_, ?_⟩
  · rw [visits_cons, List.drop_one, List.tail_cons, visits]
  · rw [Decoder.listWords_one 0#64 [0x4000#16] passes, Decoder.listWords_one _ [] halts,
      Decoder.listWords, Listing.addresses_cons, Listing.addresses_cons]
    rfl

end Blueprint

end Generated

end DspIsa
