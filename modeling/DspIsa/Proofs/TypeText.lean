import DspIsa.Proofs.DispatchText

/-! Reading the type declarations of a generated decoder back from their text. A name is whatever
stands in front of the mark that ends it: the reading does not presuppose what names look like. -/
namespace DspIsa.Generated

/-- The lines that declare the types of a family and its two enumerations. -/
def typeLines (opcodes values : String) (types : List OpcodeType) : List String :=
  opcodeEnum opcodes types ++ types.flatMap OpcodeType.declaration ++ valueEnum values types

/-- The text of those lines. -/
def typeText (opcodes values : String) (types : List OpcodeType) : String :=
  String.join ((typeLines opcodes values types).map (· ++ "\n"))

namespace Source

/-- The text in front of the next mark on the line. -/
def upTo (mark : Char) : Reader String := fun chars =>
  some (String.ofList (chars.takeWhile fun c => c != mark && c != '\n'),
    chars.dropWhile fun c => c != mark && c != '\n')

def opcodeVariant : Reader String := do
  literal "    "
  let name ← upTo ','
  line ","
  return name

def fieldName : Reader String := do
  literal "    pub "
  let name ← upTo ':'
  line ": u16,"
  return name

/-- A variant and the type of the value in it. -/
def valueVariant : Reader (String × String) := do
  literal "    "
  let variant ← upTo '('
  literal "("
  let type ← upTo ')'
  line "),"
  return (variant, type)

/-- A type as declared: its name and the names of its fields. -/
structure TypeDeclaration where
  name : String
  fields : List String
  deriving DecidableEq, Repr

def fieldBlock : Reader (List String) :=
  (do line " \x7b\x7d"; return []) <|>
  (do
    line " \x7b"
    let fields ← repeated fieldName
    line "\x7d"
    return fields)

def typeDeclaration : Reader TypeDeclaration := do
  line "#[allow(non_camel_case_types)]"
  line "#[derive(Debug, Clone, Copy, PartialEq, Eq, Hash, Default)]"
  literal "pub struct "
  let name ← upTo ' '
  let fields ← fieldBlock
  line ""
  return ⟨name, fields⟩

/-- An enumeration of the given name. -/
def enumeration {Variant : Type} (name : String) (variant : Reader Variant) :
    Reader (List Variant) := do
  line "#[allow(non_camel_case_types)]"
  line "#[derive(Debug, Clone, Copy, PartialEq, Eq, Hash)]"
  line ("pub enum " ++ name ++ " \x7b")
  let variants ← repeated variant
  line "\x7d"
  line ""
  return variants

/-- The declarations of one family of instructions. -/
structure TypeSection where
  opcodes : List String
  types : List TypeDeclaration
  values : List (String × String)
  deriving DecidableEq, Repr

namespace TypeSection

/-- The names of all types and variants, wherever they are declared or referred to. -/
def names (declared : TypeSection) : List String :=
  declared.opcodes ++ declared.types.map (·.name) ++
    declared.values.flatMap fun value => [value.1, value.2]

def fieldNames (declared : TypeSection) : List String :=
  declared.types.flatMap (·.fields)

/-- What the text says about the types of a family. -/
def ofTypes (types : List OpcodeType) : TypeSection where
  opcodes := types.map (·.ident)
  types := types.map fun type => ⟨type.ident, type.fields.map (·.name)⟩
  values := types.map fun type => (type.ident, type.ident)

theorem mem_names_ofTypes {types : List OpcodeType} {name : String} :
    name ∈ (ofTypes types).names ↔ name ∈ types.map (·.ident) := by
  simp [names, ofTypes, List.mem_flatMap]
  grind

theorem mem_fieldNames_ofTypes {types : List OpcodeType} {name : String} :
    name ∈ (ofTypes types).fieldNames ↔
      ∃ type ∈ types, ∃ field ∈ type.fields, field.name = name := by
  simp [fieldNames, ofTypes, List.mem_flatMap]

end TypeSection

def typeSection (opcodes values : String) : Reader TypeSection := do
  let variants ← enumeration opcodes opcodeVariant
  let types ← repeated typeDeclaration
  let held ← enumeration values valueVariant
  return ⟨variants, types, held⟩

/-- The declarations of a text that holds those of one family, nothing else. -/
def typeSection? (opcodes values text : String) : Option TypeSection :=
  match (typeSection opcodes values).run text.toList with
  | some (declared, []) => some declared
  | _ => none

section Reading

variable {rest : List Char}

/-- A word ends at a mark that is no part of words. -/
theorem run_bind_upTo {Whole : Type} {word : String} (isName : IsName word) {mark : Char}
    (text : String) (next : String → Reader Whole) (other : isNameChar mark = false)
    (marked : text.toList.head? = some mark) :
    (upTo mark >>= next).run (word.toList ++ (text.toList ++ rest)) =
      (next word).run (text.toList ++ rest) := by
  have plain : ∀ c ∈ word.toList, (c != mark && c != '\n') = true := by
    intro c member
    have inside := isName.chars c member
    rw [Bool.and_eq_true, bne_iff_ne, bne_iff_ne]
    constructor
    · rintro rfl
      rw [inside] at other
      cases other
    · rintro rfl
      exact absurd inside (by decide)
  have stops : ∀ c ∈ (text.toList ++ rest).head?, (c != mark && c != '\n') = false := by
    intro c head
    rw [List.head?_append, marked] at head
    cases head
    simp
  obtain ⟨taken, dropped⟩ := takeWhile_append_of_all plain stops
  refine run_bind (?_ : (upTo mark).run _ = some (word, text.toList ++ rest))
  change some _ = _
  rw [taken, dropped, String.ofList_toList]

theorem run_opcodeVariant {type : OpcodeType} (isName : IsName type.ident) (rest : List Char) :
    opcodeVariant.run ((("    " ++ type.ident ++ ",").toList ++ "\n".toList) ++ rest) =
      some (type.ident, rest) := by
  simp only [String.toList_append, List.append_assoc, opcodeVariant]
  rw [run_bind_literal, run_bind_upTo isName "," _ (by decide) (by decide), run_bind_line]
  rfl

theorem run_fieldName {field : Field} (isName : IsName field.name) (rest : List Char) :
    fieldName.run ((("    pub " ++ field.name ++ ": u16,").toList ++ "\n".toList) ++ rest) =
      some (field.name, rest) := by
  simp only [String.toList_append, List.append_assoc, fieldName]
  rw [run_bind_literal, run_bind_upTo isName ": u16," _ (by decide) (by decide), run_bind_line]
  rfl

theorem run_valueVariant {type : OpcodeType} (isName : IsName type.ident) (rest : List Char) :
    valueVariant.run (((s!"    {type.ident}({type.ident}),").toList ++ "\n".toList) ++ rest) =
      some ((type.ident, type.ident), rest) := by
  have text : s!"    {type.ident}({type.ident})," =
    "    " ++ type.ident ++ "(" ++ type.ident ++ ")," := rfl
  simp only [text, String.toList_append, List.append_assoc, valueVariant]
  rw [run_bind_literal, run_bind_upTo isName "(" _ (by decide) (by decide), run_bind_literal,
    run_bind_upTo isName ")," _ (by decide) (by decide), run_bind_line]
  rfl

/-- The lines of an enumeration are read to its variants. -/
theorem run_enumeration {Variant : Type} {reader : Reader Variant} {variant : OpcodeType → Variant}
    {text : OpcodeType → String} {types : List OpcodeType} (name : String)
    (reads : ∀ type ∈ types, ∀ rest, reader.run (((text type).toList ++ "\n".toList) ++ rest) =
      some (variant type, rest))
    (ended : ∀ rest, reader.run ("\x7d".toList ++ rest) = none) (rest : List Char) :
    (enumeration name reader).run (written ([allowTypes, deriveLine,
      opening ("pub enum " ++ name)] ++ types.map text ++ ["\x7d", ""]) ++ rest) = some (types.map variant, rest) := by
  rw [enumeration]
  simp only [written_append, written_cons, written_nil, List.append_assoc, List.nil_append,
    allowTypes, deriveLine, opening, run_bind_line]
  rw [run_bind (run_repeated_lines reads (ended _)), run_bind_line, run_bind_line]
  rfl

/-- A block without fields stands on the line of its type. -/
theorem run_fieldBlock_nil (rest : List Char) :
    fieldBlock.run (" \x7b\x7d".toList ++ ("\n".toList ++ rest)) = some ([], rest) :=
  run_orElse_left (run_bind_line ..)

theorem run_fieldBlock {fields : List Field} (names : ∀ field ∈ fields, IsIdentifier field.name)
    (rest : List Char) :
    fieldBlock.run (" \x7b".toList ++ ("\n".toList ++ (written (fields.map fun field =>
      "    pub " ++ field.name ++ ": u16,") ++ ("\x7d".toList ++ ("\n".toList ++ rest))))) =
        some (fields.map (·.name), rest) := by
  have lines (behind : List Char) : (repeated fieldName).run
      (written (fields.map fun field => "    pub " ++ field.name ++ ": u16,") ++
        ("\x7d".toList ++ behind)) = some (fields.map (·.name), "\x7d".toList ++ behind) :=
    run_repeated_lines (fun field member rest => run_fieldName (names field member).toIsName rest)
      (run_bind_eq_none (run_literal_eq_none rfl))
  refine (run_orElse_right (run_bind_eq_none ?_)).trans ?_
  · exact run_bind_eq_none (run_literal_eq_none rfl)
  · rw [run_bind_line, run_bind (lines _), run_bind_line]
    rfl

theorem run_typeDeclaration {type : OpcodeType} (legible : Legible type) (rest : List Char) :
    typeDeclaration.run (written type.declaration ++ rest) =
      some (⟨type.ident, type.fields.map (·.name)⟩, rest) := by
  obtain ⟨ident, bits, fields⟩ := type
  obtain ⟨isName, names⟩ := legible
  cases fields with
  | nil =>
    have text : (⟨ident, bits, []⟩ : OpcodeType).declaration =
      [allowTypes, deriveDefaultLine, "pub struct " ++ ident ++ " \x7b\x7d", ""] := rfl
    rw [text, typeDeclaration]
    simp only [written_cons, written_nil, List.append_assoc, List.nil_append, allowTypes,
      deriveDefaultLine, String.toList_append, run_bind_line]
    rw [run_bind_literal, run_bind_upTo isName " \x7b\x7d" _ (by decide) (by decide),
      run_bind (run_fieldBlock_nil _), run_bind_line]
    rfl
  | cons first others =>
    have text : (⟨ident, bits, first :: others⟩ : OpcodeType).declaration =
      [allowTypes, deriveDefaultLine, "pub struct " ++ ident ++ " \x7b"] ++
        (first :: others).map (fun field => "    pub " ++ field.name ++ ": u16,") ++
          ["\x7d", ""] := by
      simp [OpcodeType.declaration, opening]
    have block (behind : List Char) := run_fieldBlock names behind
    rw [text, typeDeclaration]
    simp only [written_append, written_cons, written_nil, List.append_assoc, List.nil_append,
      allowTypes, deriveDefaultLine, String.toList_append, run_bind_line]
    rw [run_bind_literal, run_bind_upTo isName " \x7b" _ (by decide) (by decide),
      run_bind (block _), run_bind_line]
    rfl

/-- The enumeration of values behind the types is no further type. -/
theorem run_typeDeclaration_valueEnum (values : String) (types : List OpcodeType)
    (rest : List Char) :
    typeDeclaration.run (written (valueEnum values types) ++ rest) = none := by
  -- both begin with the same line and differ at the end of the second one
  simp only [typeDeclaration, valueEnum, written_append, written_cons, List.append_assoc,
    allowTypes, deriveLine, run_bind_line]
  exact run_bind_eq_none (run_bind_eq_none (run_literal_eq_none rfl))

/-- The declarations of a family are read whole. -/
theorem run_typeSection {types : List OpcodeType} (legible : ∀ type ∈ types, Legible type)
    (opcodes values : String) (rest : List Char) :
    (typeSection opcodes values).run (written (typeLines opcodes values types) ++ rest) =
      some (.ofTypes types, rest) := by
  have variants (behind : List Char) : (enumeration opcodes opcodeVariant).run
      (written (opcodeEnum opcodes types) ++ behind) = some (types.map (·.ident), behind) :=
    run_enumeration opcodes
      (fun type member rest => run_opcodeVariant (legible type member).ident rest)
      (fun _ => run_bind_eq_none (run_literal_eq_none rfl)) behind
  have held (behind : List Char) : (enumeration values valueVariant).run
      (written (valueEnum values types) ++ behind) =
        some (types.map fun type => (type.ident, type.ident), behind) :=
    run_enumeration values
      (fun type member rest => run_valueVariant (legible type member).ident rest)
      (fun _ => run_bind_eq_none (run_literal_eq_none rfl)) behind
  have declared (behind : List Char) : (repeated typeDeclaration).run
      ((types.flatMap fun type => written type.declaration) ++
        (written (valueEnum values types) ++ behind)) =
          some (types.map fun type => ⟨type.ident, type.fields.map (·.name)⟩,
            written (valueEnum values types) ++ behind) := by
    refine run_repeated (fun type member rest => run_typeDeclaration (legible type member) rest)
      (fun type _ empty => ?_) ?_
    · simp [OpcodeType.declaration, written_cons] at empty
    · exact run_typeDeclaration_valueEnum values types behind
  have structs : written (types.flatMap OpcodeType.declaration) =
      types.flatMap fun type => written type.declaration := List.flatMap_assoc
  rw [typeLines, written_append, written_append, structs, List.append_assoc, List.append_assoc,
    typeSection, run_bind (variants _), run_bind (declared _), run_bind (held _)]
  rfl

theorem typeSection?_typeText {types : List OpcodeType} (legible : ∀ type ∈ types, Legible type)
    (opcodes values : String) :
    typeSection? opcodes values (typeText opcodes values types) = some (.ofTypes types) := by
  have read := run_typeSection legible opcodes values []
  rw [List.append_nil] at read
  rw [typeSection?, typeText, toList_join_lines, read]

end Reading

end Source

namespace Program

/-- The part of the text that declares the types of the main instructions. -/
def mainTypeText (program : Program) : String :=
  typeText "DspOpcode" "DspInstruction" program.mainTypes

/-- The part of the text that declares the types of the extensions. -/
def extensionTypeText (program : Program) : String :=
  typeText "ExtensionOpcode" "ExtensionInstruction" program.extensionTypes

/-- Both parts stand in the whole text as they are. -/
theorem typeTexts_isInfix (program : Program) :
    program.mainTypeText.toList <:+: program.text.toList ∧
      program.extensionTypeText.toList <:+: program.text.toList := by
  rw [mainTypeText, extensionTypeText, typeText, typeText, toList_text]
  simp only [Source.toList_join_lines]
  constructor
  · exact Source.written_isInfix ⟨program.headerLines ++ bitHelperLines, _, by
      rw [lines, mainTypeLines, typeLines]; simp only [List.append_assoc]; rfl⟩
  · exact Source.written_isInfix
      ⟨program.headerLines ++ bitHelperLines ++ mainTypeLines program.mainTypes, _, by
        rw [lines, extensionTypeLines, typeLines]; simp only [List.append_assoc]; rfl⟩

end Program

end DspIsa.Generated
