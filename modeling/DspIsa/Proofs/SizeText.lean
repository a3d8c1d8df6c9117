import DspIsa.Proofs.DispatchText

/-! Reading the width method of the generated instructions back from its text. It has one arm for
each variant, and the first arm that fits the value gives its width. -/
namespace DspIsa.Generated

/-- The arm for the values of one type. -/
def OpcodeType.sizeLine (type : OpcodeType) : String :=
  s!"            DspInstruction::{type.ident}(_) => {type.bits},"

namespace Source

/-- An arm of the method: a variant and the width in bits of its values. -/
structure SizeCase where
  type : String
  bits : Nat
  deriving DecidableEq, Repr

def sizeCase : Reader SizeCase := do
  literal "            DspInstruction::"
  let type ← typeName
  literal "(_) => "
  let bits ← number
  line ","
  return ⟨type, bits⟩

def sizeMethod : Reader (List SizeCase) := do
  line "    /// Encoded width in bits."
  line "    pub const fn size(&self) -> u32 \x7b"
  line "        match self \x7b"
  let cases ← repeated sizeCase
  line "        \x7d"
  line "    \x7d"
  return cases

/-- The arms of a text that holds the method, nothing else. -/
def sizes? (text : String) : Option (List SizeCase) :=
  match sizeMethod.run text.toList with
  | some (cases, []) => some cases
  | _ => none

/-- The width of the values of a type. -/
def size? (cases : List SizeCase) (type : String) : Option Nat :=
  (cases.find? (·.type == type)).map (·.bits)

/-- What the text says about a type. -/
def SizeCase.ofType (type : OpcodeType) : SizeCase := ⟨type.ident, type.bits⟩

variable {rest : List Char}

theorem run_sizeCase {type : OpcodeType} (isName : IsName type.ident) (rest : List Char) :
    sizeCase.run ((type.sizeLine.toList ++ "\n".toList) ++ rest) = some (.ofType type, rest) := by
  have text : type.sizeLine = "            DspInstruction::" ++ type.ident ++ "(_) => " ++
    type.bits.repr ++ "," := rfl
  simp only [text, String.toList_append, List.append_assoc, sizeCase]
  rw [run_bind_literal, run_bind_typeName isName _ _ (by decide), run_bind_literal,
    run_bind_number _ _ _ (by decide), run_bind_line]
  rfl

theorem run_sizeMethod {types : List OpcodeType} (names : ∀ type ∈ types, IsName type.ident)
    (rest : List Char) :
    sizeMethod.run (written (sizeFunction types) ++ rest) = some (types.map .ofType, rest) := by
  have text : sizeFunction types =
      ["    /// Encoded width in bits.", "    pub const fn size(&self) -> u32 \x7b",
        "        match self \x7b"] ++ types.map OpcodeType.sizeLine ++
          ["        \x7d", "    \x7d"] := rfl
  have arms (behind : List Char) : (repeated sizeCase).run
      (written (types.map OpcodeType.sizeLine) ++ ("        \x7d".toList ++ behind)) =
        some (types.map .ofType, "        \x7d".toList ++ behind) :=
    run_repeated_lines (fun type member rest => run_sizeCase (names type member) rest)
      (run_bind_eq_none (run_literal_eq_none rfl))
  rw [text, sizeMethod]
  simp only [written_append, written_cons, written_nil, List.append_assoc, List.nil_append,
    run_bind_line]
  rw [run_bind (arms _), run_bind_line, run_bind_line]
  rfl

/-- Where no two types have one name, the arm of a type states its width. -/
theorem size?_map_ofType {types : List OpcodeType} (distinct : (types.map (·.ident)).Nodup)
    {type : OpcodeType} (member : type ∈ types) :
    size? (types.map .ofType) type.ident = some type.bits := by
  have names : ((types.map SizeCase.ofType).map (·.type)).Nodup := by
    rw [List.map_map]
    exact distinct
  have found := find?_of_nodup_map names (List.mem_map_of_mem member)
  rw [size?, show type.ident = (SizeCase.ofType type).type from rfl, found]
  rfl

end Source

namespace Program

/-- The part of the text that states the widths of the main instructions. -/
def sizeText (program : Program) : String :=
  String.join ((sizeFunction program.mainTypes).map (· ++ "\n"))

theorem sizeText_isInfix (program : Program) :
    program.sizeText.toList <:+: program.text.toList := by
  have inside : sizeFunction program.mainTypes <:+: mainTypeLines program.mainTypes :=
    ⟨_, _, rfl⟩
  have whole : mainTypeLines program.mainTypes <:+: program.lines :=
    ⟨program.headerLines ++ bitHelperLines, _, by rw [lines]; simp only [List.append_assoc]; rfl⟩
  rw [sizeText, Source.toList_join_lines, toList_text]
  exact Source.written_isInfix (inside.trans whole)

end Program

namespace Source

/-- The widths that a program's text states are those of its types. -/
theorem sizes?_sizeText {program : Program}
    (names : ∀ type ∈ program.mainTypes, IsName type.ident) :
    sizes? program.sizeText = some (program.mainTypes.map .ofType) := by
  have read := run_sizeMethod names []
  rw [List.append_nil] at read
  rw [sizes?, Program.sizeText, toList_join_lines, read]

end Source

end DspIsa.Generated
