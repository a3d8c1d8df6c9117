import DspIsa.Proofs.DispatchFunctions
import DspIsa.Proofs.RoundTrip
import DspIsa.Proofs.TypeText

/-! Which names in a generated decoder are legal. Letters, a number or a prefix make a legal name of
every opcode; the reserved underscore is left to an opcode of one other character. -/
namespace DspIsa.Generated

/-! ### Names of types -/

section Declared

variable {claim : TypeNames → String → String × TypeNames} {instructions : List Instruction}
  {types : List OpcodeType} {before after names : TypeNames}

/-- Every declared type has a name that was handed out for an opcode. -/
theorem OpcodeType.exists_opcode_of_declare
    (made : declare claim before instructions = .ok (types, after)) {type : OpcodeType}
    (member : type ∈ types) :
    ∃ instr ∈ instructions, ∃ names, type.ident = (claim names instr.name).1 := by
  induction instructions generalizing before types with
  | nil =>
    cases made
    cases member
  | cons instr rest ih =>
    obtain ⟨first, others, head, more, rfl⟩ := declare_cons_eq_ok made
    rcases List.mem_cons.mp member with rfl | later
    · obtain ⟨sources, -, shape⟩ := ofInstruction_eq_ok head
      exact ⟨instr, List.mem_cons_self, before, by rw [shape]⟩
    · obtain ⟨other, listed, names, same⟩ := ih more later
      exact ⟨other, List.mem_cons_of_mem _ listed, names, same⟩

/-- The names asked for are all taken in the end. -/
theorem OpcodeType.isTaken_typeIdent
    (made : declare TypeNames.claimMain before instructions = .ok (types, after))
    {instr : Instruction} (member : instr ∈ instructions) :
    after.isTaken (typeIdent instr.name) = true := by
  induction instructions generalizing before types with
  | nil => cases member
  | cons first rest ih =>
    obtain ⟨type, others, -, more, rfl⟩ := declare_cons_eq_ok made
    rcases List.mem_cons.mp member with rfl | later
    · exact ((declared_of_declare naming_claimMain more).taken _).mpr
        (.inr (TypeNames.isTaken_claim before _))
    · exact ih more later

/-- The types of a completed family are the declared ones, and a no-op where none was declared. -/
theorem Family.mem_types_complete {type : OpcodeType}
    (member : type ∈ (complete claim names instructions types).1.types) :
    type ∈ types ∨ type = .bare (claim names fallbackName).1 := by
  unfold complete at member
  split at member
  · exact .inl member
  · rwa [List.mem_append, List.mem_singleton] at member

/-- Every name of a family was handed out for an opcode or for the no-op. -/
theorem Family.exists_opcode
    (made : OpcodeType.declare claim before instructions = .ok (types, after)) {type : OpcodeType}
    (member : type ∈ (complete claim names instructions types).1.types) :
    ∃ opcode ∈ fallbackName :: instructions.map (·.name), ∃ names,
      type.ident = (claim names opcode).1 := by
  rcases mem_types_complete member with declared | rfl
  · obtain ⟨instr, listed, names, same⟩ := OpcodeType.exists_opcode_of_declare made declared
    exact ⟨instr.name, List.mem_cons_of_mem _ (List.mem_map_of_mem listed), names, same⟩
  · exact ⟨fallbackName, List.mem_cons_self, names, rfl⟩

end Declared

namespace Blueprint

variable {doc : Document} {blueprint : Blueprint}

/-- Extensions and synthesized no-ops always have identifiers for names. -/
theorem isIdentifier_extension_ident (planned : ofDocument doc = .ok blueprint) :
    ∀ type ∈ blueprint.extension.types, IsIdentifier type.ident := by
  obtain ⟨mainTypes, names, extensionTypes, after, -, declared, rfl⟩ := exists_declared planned
  intro type member
  obtain ⟨opcode, -, names, same⟩ := Family.exists_opcode declared member
  rw [same]
  exact TypeNames.isIdentifier_claim (isIdentifier_extension opcode) names

theorem isName_main_ident (planned : ofDocument doc = .ok blueprint) :
    ∀ type ∈ blueprint.main.types, IsName type.ident := by
  obtain ⟨mainTypes, names, extensionTypes, after, declared, -, rfl⟩ := exists_declared planned
  intro type member
  obtain ⟨opcode, -, names, same⟩ := Family.exists_opcode declared member
  rw [same]
  exact TypeNames.isName_claim (isName_typeIdent opcode) names

/-- A main type has the reserved name if an opcode is one character, no letter or digit. -/
theorem underscore_mem_main_ident_iff (planned : ofDocument doc = .ok blueprint) :
    "_" ∈ blueprint.main.types.map (·.ident) ↔
      ∃ instr ∈ doc.instructions, ∃ c, instr.name.toList = [c] ∧ c.isAlphanum = false := by
  obtain ⟨mainTypes, names, extensionTypes, after, declared, -, rfl⟩ := exists_declared planned
  constructor
  · intro member
    obtain ⟨type, listed, reserved⟩ := List.mem_map.mp member
    obtain ⟨opcode, source, names, same⟩ := Family.exists_opcode declared listed
    have base := TypeNames.eq_underscore_of_claim (same.symm.trans reserved)
    rcases List.mem_cons.mp source with rfl | own
    · -- a no-op that is added has the name of one
      exact absurd base (by decide)
    · obtain ⟨instr, inside, rfl⟩ := List.mem_map.mp own
      exact ⟨instr, inside, typeIdent_eq_underscore_iff.mp base⟩
  · rintro ⟨instr, inside, single⟩
    -- the instruction itself may have a number behind its name; then an earlier one has the name
    have taken := OpcodeType.isTaken_typeIdent declared inside
    rw [typeIdent_eq_underscore_iff.mpr single,
      (OpcodeType.declared_of_declare OpcodeType.naming_claimMain declared).taken] at taken
    rcases taken with member | initially
    · obtain ⟨type, listed, reserved⟩ := List.mem_map.mp member
      obtain ⟨index, found⟩ := List.mem_iff_getElem?.mp listed
      exact List.mem_map.mpr
        ⟨type, List.mem_of_getElem? (Family.getElem?_complete found), reserved⟩
    · cases initially

/-- The declarations in the text generated for an accepted spec are read whole. All fields and all
extensions, the no-ops among them, have legal names there, and so has every main type that is not
called `_`. No main type is called so, and all names are legal, just if no opcode of one character
is other than a letter or digit. -/
theorem identifiers_iff_of_loadText {loader : Loader} {path source : String}
    (accepted : (loader.loadText path source).value.1 = .ok doc) (options : Options) :
    ∃ blueprint main extension, ofDocument doc = .ok blueprint ∧
      (blueprint.program options).mainTypeText.toList <:+:
        (blueprint.program options).text.toList ∧
      (blueprint.program options).extensionTypeText.toList <:+:
        (blueprint.program options).text.toList ∧
      Source.typeSection? "DspOpcode" "DspInstruction"
        (blueprint.program options).mainTypeText = some main ∧
      Source.typeSection? "ExtensionOpcode" "ExtensionInstruction"
        (blueprint.program options).extensionTypeText = some extension ∧
      (∀ name ∈ main.fieldNames ++ extension.fieldNames ++ extension.names, IsIdentifier name) ∧
      (∀ name ∈ main.names, name ≠ "_" → IsIdentifier name) ∧
      ((∀ name ∈ main.names, IsIdentifier name) ↔
        ∀ instr ∈ doc.instructions, ∀ c, instr.name.toList = [c] → c.isAlphanum = true) := by
  obtain ⟨blueprint, planned, -⟩ := exists_ofDocument (Decoder.whole_of_loadText accepted)
  obtain ⟨-, -, main, extension⟩ := ofDocument_eq_ok planned
  have shown := isName_main_ident planned
  obtain ⟨mainInside, extensionInside⟩ := (blueprint.program options).typeTexts_isInfix
  refine ⟨blueprint, _, _, planned, mainInside, extensionInside,
    Source.typeSection?_typeText main.legible.types _ _,
    Source.typeSection?_typeText extension.legible.types _ _, ?_, ?_, ?_⟩
  · intro name member
    rw [List.mem_append, List.mem_append, Source.TypeSection.mem_fieldNames_ofTypes,
      Source.TypeSection.mem_fieldNames_ofTypes, Source.TypeSection.mem_names_ofTypes] at member
    rcases member with (⟨type, listed, field, inside, rfl⟩ | ⟨type, listed, field, inside, rfl⟩) |
      member
    · obtain ⟨instr, -, own⟩ := main.exists_mem_fieldNames listed inside
      exact isIdentifier_of_mem_fieldNames own
    · obtain ⟨instr, -, own⟩ := extension.exists_mem_fieldNames listed inside
      exact isIdentifier_of_mem_fieldNames own
    · obtain ⟨type, listed, rfl⟩ := List.mem_map.mp member
      exact isIdentifier_extension_ident planned type listed
  · intro name member named
    obtain ⟨type, listed, rfl⟩ := List.mem_map.mp (Source.TypeSection.mem_names_ofTypes.mp member)
    exact ⟨shown type listed, named⟩
  · constructor
    · intro legal instr inside c single
      by_contra other
      have reserved := (underscore_mem_main_ident_iff planned).mpr
        ⟨instr, inside, c, single, (Bool.not_eq_true _).mp other⟩
      exact (legal "_" (Source.TypeSection.mem_names_ofTypes.mpr reserved)).named rfl
    · intro plain name member
      have declared := Source.TypeSection.mem_names_ofTypes.mp member
      obtain ⟨type, listed, rfl⟩ := List.mem_map.mp declared
      refine ⟨shown type listed, fun reserved => ?_⟩
      rw [reserved] at declared
      obtain ⟨instr, inside, c, single, other⟩ :=
        (underscore_mem_main_ident_iff planned).mp declared
      rw [plain instr inside c single] at other
      cases other

open Decoder in
/-- All names are legal for a spec with opcodes of several letters. -/
theorem identifiers_iff_of_loadText_mixedWidths :
    ∃ doc blueprint main, (Loader.new.loadText "mixed" mixedWidths).value.1 = .ok doc ∧
      ofDocument doc = .ok blueprint ∧
      Source.typeSection? "DspOpcode" "DspInstruction"
        (blueprint.program .standard).mainTypeText = some main ∧
      ∀ name ∈ main.names, IsIdentifier name := by
  obtain ⟨doc, accepted, instructions⟩ := exists_mixedWidths
  obtain ⟨blueprint, main, extension, planned, -, -, read, -, -, -, legal⟩ :=
    identifiers_iff_of_loadText accepted .standard
  refine ⟨doc, blueprint, main, accepted, planned, read, legal.mpr fun instr inside c single => ?_⟩
  rw [instructions] at inside
  rcases List.mem_pair.mp inside with rfl | rfl
  · cases single
  · cases single

/-- An opcode that is a dash. -/
def dash : String := "- * 0000 0000 0000 0000\n"

def dashInstruction : Instruction :=
  ⟨"-", "-", [], 0xFFFF#32, 0x0000#32, .bits16, ⟨"dash", ⟨1, 1⟩, ⟨1, 24⟩⟩⟩

/-- The spec is accepted, and the text generated for it declares a type with the reserved name. -/
theorem underscore_mem_names_dash :
    ∃ doc blueprint main, (Loader.new.loadText "dash" dash).value.1 = .ok doc ∧
      ofDocument doc = .ok blueprint ∧
      Source.typeSection? "DspOpcode" "DspInstruction"
        (blueprint.program .standard).mainTypeText = some main ∧
      "_" ∈ main.names ∧ ¬ IsIdentifier "_" := by
  obtain ⟨doc, accepted, instructions, -⟩ := Loader.exists_loadText
    (by decide +kernel : ((Loader.new.loadText "dash" dash).value.1.toOption.map
      fun doc => (doc.instructions, doc.extensions)) = some ([dashInstruction], []))
  obtain ⟨blueprint, planned, follows⟩ := exists_ofDocument (Decoder.whole_of_loadText accepted)
  refine ⟨doc, blueprint, _, accepted, planned,
    Source.typeSection?_typeText follows.main.legible.types _ _,
    Source.TypeSection.mem_names_ofTypes.mpr ?_, fun identifier => identifier.named rfl⟩
  refine (underscore_mem_main_ident_iff planned).mpr ⟨dashInstruction, ?_, '-', rfl, rfl⟩
  rw [instructions]
  exact List.mem_singleton_self _

end Blueprint

end DspIsa.Generated
