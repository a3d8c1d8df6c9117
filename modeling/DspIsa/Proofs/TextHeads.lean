import DspIsa.Proofs.DispatchOrder
import DspIsa.Proofs.GeneratedExtensions
import DspIsa.Proofs.HeaderComments

/-! The dispatch functions that the lines of the whole text open, as its reader finds them: cut at
every newline. Behind the label and the digest all lines are those of the program, as every name is
a word and the log target is quoted. The label and the digest open functions of their own only if
they have several lines. -/
namespace DspIsa.Generated

namespace Source

/-- The text has no newline. -/
def Unbroken (text : String) : Prop := '\n' ∉ text.toList

instance (text : String) : Decidable (Unbroken text) := inferInstanceAs (Decidable (_ ∉ _))

theorem unbroken_append {front back : String} :
    Unbroken (front ++ back) ↔ Unbroken front ∧ Unbroken back := by
  simp only [Unbroken, String.toList_append, List.mem_append, not_or]

/-- For a text that is written out, its characters are compared as they stand. -/
theorem unbroken_ofList {chars : List Char} (free : '\n' ∉ chars) :
    Unbroken (String.ofList chars) := by
  rw [Unbroken, String.toList_ofList]
  exact free

theorem unbroken_of_forall {text : String} {p : Char → Prop} (each : ∀ c ∈ text.toList, p c)
    (excluded : ¬ p '\n') : Unbroken text :=
  fun newline => excluded (each _ newline)

theorem unbroken_name {name : String} (isName : IsName name) : Unbroken name :=
  unbroken_of_forall isName.chars (by decide)

theorem unbroken_repr (value : Nat) : Unbroken value.repr := by
  refine unbroken_of_forall (p := fun c => c.isDigit = true) (fun c member => ?_) (by decide)
  rw [Nat.toList_repr] at member
  exact Nat.isDigit_of_mem_toDigits (by decide) (by decide) member

theorem unbroken_hex (width value : Nat) : Unbroken (Text.hex width value) :=
  unbroken_of_forall (forall_mem_hex (p := (· ≠ '\n')) (by decide) width value) (· rfl)

theorem unbroken_escape (c : Char) : Unbroken (Text.escape c) := by
  unfold Text.escape
  split_ifs with nul tab carriage newline
  all_goals try decide
  · exact unbroken_append.mpr ⟨unbroken_append.mpr ⟨by decide, unbroken_hex 1 _⟩, by decide⟩
  · rw [Unbroken, Char.toString, String.toList_singleton, List.mem_singleton]
    exact Ne.symm newline

theorem unbroken_quoted (text : String) : Unbroken (Text.quoted text) := by
  refine unbroken_append.mpr ⟨unbroken_append.mpr ⟨by decide, fun newline => ?_⟩, by decide⟩
  rw [String.toList_join, List.flatMap_map, List.mem_flatMap] at newline
  obtain ⟨c, -, inside⟩ := newline
  exact unbroken_escape c inside

theorem unbroken_intercalate {texts : List String} (each : ∀ text ∈ texts, Unbroken text) :
    Unbroken (", ".intercalate texts) := by
  cases texts with
  | nil => decide
  | cons first others =>
    obtain ⟨head, later⟩ := List.forall_mem_cons.mp each
    rw [Unbroken, toList_intercalate_cons, List.mem_append, List.mem_flatMap]
    rintro (newline | ⟨text, member, newline⟩)
    · exact head newline
    · rcases List.mem_append.mp newline with comma | inside
      · exact absurd comma (by decide)
      · exact later text member inside

theorem unbroken_input (input : Input) : Unbroken input.render := by cases input <;> decide

theorem unbroken_fieldRead (source : FieldRead) : Unbroken source.render := by
  cases source with
  | whole input => exact unbroken_input input
  | bit input index =>
    have text : (FieldRead.bit input index).render =
      "bit(" ++ input.render ++ ", " ++ index.repr ++ ")" := rfl
    simp only [text, unbroken_append, unbroken_input, unbroken_repr]
    decide
  | bits input low high =>
    have text : (FieldRead.bits input low high).render =
      "bits(" ++ input.render ++ ", " ++ low.repr ++ ", " ++ high.repr ++ ")" := rfl
    simp only [text, unbroken_append, unbroken_input, unbroken_repr]
    decide

theorem unbroken_field {field : Field} (identifier : IsIdentifier field.name) :
    Unbroken field.render := by
  have text : field.render = field.name ++ ": " ++ field.source.render := rfl
  simp only [text, unbroken_append, unbroken_name identifier.toIsName, unbroken_fieldRead]
  decide

section Types

variable {type : OpcodeType} {family : String}

theorem unbroken_construct (legible : Legible type) (plain : Unbroken family) :
    Unbroken (type.construct family) := by
  have fields : Unbroken (braced type.fields) := by
    unfold braced
    split
    · decide
    · refine unbroken_append.mpr ⟨unbroken_append.mpr ⟨by decide, ?_⟩, by decide⟩
      refine unbroken_intercalate (List.forall_mem_map.mpr fun field member => ?_)
      exact unbroken_field (legible.fields field member)
  have text : type.construct family = family ++ "::" ++ type.ident ++ "(" ++
    type.ident ++ " " ++ braced type.fields ++ ")" := rfl
  simp only [text, unbroken_append, plain, unbroken_name legible.ident, fields]
  decide

theorem unbroken_defaultValue (isName : IsName type.ident) (plain : Unbroken family) :
    Unbroken (type.defaultValue family) := by
  have text : type.defaultValue family = family ++ "::" ++ type.ident ++ "(" ++
    type.ident ++ "::default())" := rfl
  simp only [text, unbroken_append, plain, unbroken_name isName]
  decide

end Types

/-- Each line is one line of the text. -/
def Separate (lines : List String) : Prop := ∀ line ∈ lines, Unbroken line

instance (lines : List String) : Decidable (Separate lines) :=
  inferInstanceAs (Decidable (∀ line ∈ lines, _))

theorem separate_nil : Separate [] := List.forall_mem_nil _

theorem separate_append {front back : List String} :
    Separate (front ++ back) ↔ Separate front ∧ Separate back :=
  List.forall_mem_append

theorem separate_cons {line : String} {lines : List String} :
    Separate (line :: lines) ↔ Unbroken line ∧ Separate lines :=
  List.forall_mem_cons

theorem separate_map {Item : Type} {line : Item → String} {items : List Item} :
    Separate (items.map line) ↔ ∀ item ∈ items, Unbroken (line item) :=
  List.forall_mem_map

section Types

variable {types : List OpcodeType} (legible : ∀ type ∈ types, Legible type)

include legible

theorem separate_opcodeEnum {name : String} (plain : Unbroken name) :
    Separate (opcodeEnum name types) := by
  have variants : Separate (types.map fun type => "    " ++ type.ident ++ ",") := by
    refine separate_map.mpr fun type member => ?_
    simp only [unbroken_append, unbroken_name (legible type member).ident]
    decide
  simp only [opcodeEnum, opening, separate_append, separate_cons, unbroken_append, plain, variants]
  decide

theorem separate_valueEnum {name : String} (plain : Unbroken name) :
    Separate (valueEnum name types) := by
  have variants : Separate (types.map fun type => s!"    {type.ident}({type.ident}),") := by
    refine separate_map.mpr fun type member => ?_
    have text : s!"    {type.ident}({type.ident})," =
      "    " ++ type.ident ++ "(" ++ type.ident ++ ")," := rfl
    simp only [text, unbroken_append, unbroken_name (legible type member).ident]
    decide
  simp only [valueEnum, opening, separate_append, separate_cons, unbroken_append, plain, variants]
  decide

theorem separate_declarations : Separate (types.flatMap OpcodeType.declaration) := by
  intro line member
  obtain ⟨type, listed, inside⟩ := List.mem_flatMap.mp member
  have words := legible type listed
  have fields : Separate (type.fields.map fun field => "    pub " ++ field.name ++ ": u16,") := by
    refine separate_map.mpr fun field entry => ?_
    simp only [unbroken_append, unbroken_name (words.fields field entry).toIsName]
    decide
  have separate : Separate type.declaration := by
    unfold OpcodeType.declaration
    split <;>
      simp only [opening, separate_append, separate_cons, unbroken_append,
        unbroken_name words.ident, fields] <;>
      decide
  exact separate line inside

theorem separate_opcodeFunction {values opcodes : String} (first : Unbroken values)
    (second : Unbroken opcodes) : Separate (opcodeFunction values opcodes types) := by
  have cases : Separate (types.map fun type =>
      s!"            {values}::{type.ident}(_) => {opcodes}::{type.ident},") := by
    refine separate_map.mpr fun type member => ?_
    have text : s!"            {values}::{type.ident}(_) => {opcodes}::{type.ident}," =
      "            " ++ values ++ "::" ++ type.ident ++ "(_) => " ++ opcodes ++ "::" ++
        type.ident ++ "," := rfl
    simp only [text, unbroken_append, first, second, unbroken_name (legible type member).ident]
    decide
  simp only [opcodeFunction, opening, separate_append, separate_cons, unbroken_append,
    second, cases]
  decide

theorem separate_sizeFunction : Separate (sizeFunction types) := by
  have cases : Separate (types.map fun type =>
      s!"            DspInstruction::{type.ident}(_) => {type.bits},") := by
    refine separate_map.mpr fun type member => ?_
    have text : s!"            DspInstruction::{type.ident}(_) => {type.bits}," =
      "            DspInstruction::" ++ type.ident ++ "(_) => " ++ type.bits.repr ++ "," := rfl
    simp only [text, unbroken_append, unbroken_repr, unbroken_name (legible type member).ident]
    decide
  simp only [sizeFunction, separate_append, separate_cons, cases]
  decide

theorem separate_mainTypeLines : Separate (mainTypeLines types) := by
  have plain : Unbroken "DspOpcode" ∧ Unbroken "DspInstruction" := by decide
  simp only [mainTypeLines, separate_append, separate_opcodeEnum legible plain.1,
    separate_declarations legible, separate_valueEnum legible plain.2,
    separate_opcodeFunction legible plain.2 plain.1, separate_sizeFunction legible]
  decide

theorem separate_extensionTypeLines : Separate (extensionTypeLines types) := by
  have plain : Unbroken "ExtensionOpcode" ∧ Unbroken "ExtensionInstruction" := by decide
  simp only [extensionTypeLines, separate_append, separate_opcodeEnum legible plain.1,
    separate_declarations legible, separate_valueEnum legible plain.2,
    separate_opcodeFunction legible plain.2 plain.1]
  decide

end Types

theorem separate_byteDispatch {dispatch : ByteDispatch} {nop : OpcodeType}
    (legible : ∀ arm ∈ dispatch.arms, Legible arm.type) (isName : IsName nop.ident)
    (target : String) : Separate (dispatch.lines target nop) := by
  have family : Unbroken "ExtensionInstruction" := by decide
  have cases : Separate (dispatch.arms.map ByteArm.line) := by
    refine separate_map.mpr fun arm member => ?_
    have pattern : Unbroken arm.pattern := by
      unfold ByteArm.pattern Text.markedHex
      split <;> simp only [unbroken_append, unbroken_hex] <;> decide
    simp only [ByteArm.line, unbroken_append, pattern,
      unbroken_construct (legible arm member) family]
    decide
  unfold ByteDispatch.lines
  split <;>
    simp only [separate_append, separate_cons, separate_nil, unbroken_append, cases,
      unbroken_quoted, unbroken_defaultValue isName family, and_true] <;>
    and_intros <;> exact unbroken_ofList (by decide)

theorem separate_entryLines {nop : OpcodeType} (isName : IsName nop.ident) :
    Separate (entryLines nop) := by
  have family : Unbroken "ExtensionInstruction" := by decide
  simp only [entryLines, separate_cons, separate_nil, unbroken_append,
    unbroken_defaultValue isName family, and_true]
  and_intros <;> exact unbroken_ofList (by decide)

theorem separate_body {body : FunctionBody} (legible : LegibleBody body) (target : String) :
    Separate (body.lines target) := by
  have family : Unbroken "DspInstruction" := by decide
  cases body with
  | direct type =>
    simp only [FunctionBody.lines, separate_cons, unbroken_append,
      unbroken_construct (show Legible type from legible) family]
    decide
  | unknown nop =>
    simp only [FunctionBody.lines, separate_cons, unbroken_append, unbroken_quoted,
      unbroken_defaultValue (show IsName nop.ident from legible) family]
    decide
  | dispatch indexBits arms nop =>
    obtain ⟨each, isName⟩ := legible
    have packed : Separate (indexBits.map IndexBit.line) := by
      refine separate_map.mpr fun entry _ => ?_
      have text : entry.line = "    index |= ((instruction >> " ++ entry.bit.repr ++
        ") & 0x1) << " ++ entry.slotBit.repr ++ ";" := rfl
      simp only [text, unbroken_append, unbroken_repr]
      decide
    have cases : Separate (arms.map Arm.line) := by
      rintro line member
      obtain ⟨⟨index, answer⟩, listed, rfl⟩ := List.mem_map.mp member
      have words := each _ listed
      cases answer with
      | construct type =>
        have text : (⟨index, .construct type⟩ : Arm).line =
          "        " ++ index.repr ++ " => " ++ type.construct "DspInstruction" ++ "," := rfl
        simp only [text, unbroken_append, unbroken_repr,
          unbroken_construct (show Legible type from words) family]
        decide
      | call function =>
        have text : (⟨index, .call function⟩ : Arm).line = "        " ++ index.repr ++ " => " ++
          (function ++ "(instruction, next_instruction)") ++ "," := rfl
        simp only [text, unbroken_append, unbroken_repr, unbroken_name words.1.toIsName]
        decide
    simp only [FunctionBody.lines, separate_append, separate_cons, unbroken_append, packed, cases,
      unbroken_quoted, unbroken_defaultValue isName family]
    decide

theorem separate_function {content : DispatchFunction} (legible : LegibleFunction content)
    (target : String) : Separate (content.lines target) := by
  have visible : Unbroken (if content.isPublic then "pub " else "") := by split <;> decide
  simp only [DispatchFunction.lines, separate_append, separate_cons, unbroken_append, visible,
    unbroken_name legible.name.toIsName, separate_body legible.body target]
  decide +kernel

/-- The names of the dispatch functions that lines open. -/
def headsOf (lines : List (List Char)) : List String :=
  lines.filterMap fun line => opened? (String.ofList line)

/-- The names of the dispatch functions that the lines of a text open. -/
def heads (text : String) : List String := headsOf (textLines text.toList)

/-- The names of the dispatch functions that an entry of the header opens behind its first line. -/
def strayHeads (entry : String) : List String := headsOf (spilled entry)

/-- A comment opens no function. -/
theorem opened?_comment {line : List Char} (comment : isCommentLine line = true) :
    opened? (String.ofList line) = none := by
  obtain ⟨rest, rfl⟩ := List.isPrefixOf_iff_prefix.mp comment
  rw [String.ofList_append, String.ofList_toList]
  exact opened?_append _ (fun _ => rfl) fun _ => rfl

theorem headsOf_codeLines (chars : List Char) :
    headsOf (codeLines chars) = headsOf (textLines chars) := by
  rw [headsOf, headsOf, codeLines, List.filterMap_filter]
  refine List.filterMap_congr fun line _ => ?_
  cases comment : isCommentLine line with
  | false => rfl
  | true => exact (opened?_comment comment).symm

theorem headsOf_append (front back : List (List Char)) :
    headsOf (front ++ back) = headsOf front ++ headsOf back :=
  List.filterMap_append

theorem headsOf_textLines_written {lines : List String} (separate : Separate lines) :
    headsOf (textLines (written lines)) = lines.filterMap opened? := by
  induction lines with
  | nil => decide
  | cons line lines ih =>
    obtain ⟨unbroken, others⟩ := separate_cons.mp separate
    have cut : textLines (written (line :: lines)) = line.toList :: textLines (written lines) := by
      rw [written_cons]
      exact textLines_cons unbroken _
    rw [cut, List.filterMap_cons, ← ih others, headsOf, List.filterMap_cons, String.ofList_toList]
    rfl

theorem strayHeads_of_unbroken {entry : String} (unbroken : Unbroken entry) :
    strayHeads entry = [] := by
  rw [strayHeads, spilled_of_unbroken unbroken]
  rfl

/-- A label and a digest of one line each open nothing. -/
theorem strayHeads_append_of_unbroken {label digest : String} (first : Unbroken label)
    (second : Unbroken digest) : strayHeads label ++ strayHeads digest = [] := by
  rw [strayHeads_of_unbroken first, strayHeads_of_unbroken second, List.append_nil]

end Source

open Source (Separate heads headsOf strayHeads)

namespace Program

variable {program : Program}

/-- All names in the program can be read. -/
structure Legible (program : Program) : Prop where
  mainTypes : ∀ type ∈ program.mainTypes, Source.Legible type
  extensionTypes : ∀ type ∈ program.extensionTypes, Source.Legible type
  arms : ∀ arm ∈ program.byteDispatch.arms, Source.Legible arm.type
  nop : Source.Legible program.extensionNop
  functions : ∀ content ∈ program.functions, Source.LegibleFunction content

/-- No line behind the label and the digest is broken. -/
theorem Legible.separate (legible : program.Legible) : Separate (program.lines.drop 3) := by
  have counts : Source.Unbroken
      s!"// {program.instructionCount} instruction(s), {program.extensionCount} extension(s)" := by
    have text :
        s!"// {program.instructionCount} instruction(s), {program.extensionCount} extension(s)" =
          "// " ++ program.instructionCount.repr ++ " instruction(s), " ++
            program.extensionCount.repr ++ " extension(s)" := rfl
    simp only [text, Source.unbroken_append, Source.unbroken_repr]
    decide
  have functions : Separate
      (program.functions.flatMap (DispatchFunction.lines program.logTarget)) := by
    intro line member
    obtain ⟨content, listed, inside⟩ := List.mem_flatMap.mp member
    exact Source.separate_function (legible.functions content listed) _ line inside
  have behind : program.lines.drop 3 =
      [s!"// {program.instructionCount} instruction(s), {program.extensionCount} extension(s)",
        ""] ++ bitHelperLines ++ mainTypeLines program.mainTypes ++
        extensionTypeLines program.extensionTypes ++ decodedTypeLines ++
        program.byteDispatch.lines program.logTarget program.extensionNop ++
        program.functions.flatMap (DispatchFunction.lines program.logTarget) ++
        entryLines program.extensionNop := rfl
  have fixed : Separate bitHelperLines ∧ Separate decodedTypeLines := by
    simp only [bitHelperLines, decodedTypeLines, Source.separate_cons, Source.separate_nil,
      and_true]
    and_intros <;> exact Source.unbroken_ofList (by decide)
  simp only [behind, Source.separate_append, Source.separate_cons, counts, fixed,
    Source.separate_mainTypeLines legible.mainTypes,
    Source.separate_extensionTypeLines legible.extensionTypes,
    Source.separate_byteDispatch legible.arms legible.nop.ident, functions,
    Source.separate_entryLines legible.nop.ident]
  decide

/-- The text opens the functions of the program, behind those that the label and the digest open. -/
theorem Legible.heads_text (legible : program.Legible) :
    heads program.text = strayHeads program.sourceLabel ++ strayHeads program.sourceDigest ++
      program.functions.map (·.name) := by
  have opened := program.filterMap_opened fun content member =>
    (legible.functions content member).name
  have silent : Source.Silent (program.headerLines.take 3) := fun line member =>
    Source.silent_headerLines program line (List.mem_of_mem_take member)
  have lines : program.lines = program.headerLines.take 3 ++ program.lines.drop 3 := rfl
  have behind : (program.lines.drop 3).filterMap Source.opened? =
      program.functions.map (·.name) := by
    rw [← opened, lines, List.filterMap_append, silent.filterMap]
    rfl
  rw [heads, ← Source.headsOf_codeLines, codeLines_text, Source.headsOf_append,
    Source.headsOf_append, Source.headsOf_codeLines,
    Source.headsOf_textLines_written legible.separate, behind, List.append_assoc]
  rfl

end Program

namespace Blueprint

variable {doc : Document} {blueprint : Blueprint}

theorem legible_program (planned : ofDocument doc = .ok blueprint) (options : Options) :
    (blueprint.program options).Legible := by
  obtain ⟨-, -, main, extension⟩ := ofDocument_eq_ok planned
  exact ⟨main.legible.types, extension.legible.types,
    fun arm member => (Source.legibleCase_of_mem_arms extension.legible arm member).type,
    extension.legible.nop, legible_treeFunctions main.legible _⟩

theorem heads_program (planned : ofDocument doc = .ok blueprint) (options : Options) :
    heads (blueprint.program options).text = strayHeads options.sourceLabel ++
      strayHeads (options.sourceDigest.getD doc.digest) ++
        (treeFunctions blueprint.main blueprint.tree.root).map (·.name) := by
  have digest : (blueprint.program options).sourceDigest =
      options.sourceDigest.getD doc.digest := by
    rw [program, document_of_planned planned]
  rw [(legible_program planned options).heads_text, digest]
  rfl

end Blueprint

end DspIsa.Generated
