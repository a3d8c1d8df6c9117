import DspIsa.Proofs.DispatchText

/-! Reading the extension dispatcher back from its text. Its arms take ranges of bytes, and a last
arm takes all other bytes; without one the match has to be exhaustive. -/
namespace DspIsa.Generated

namespace Source

/-- The value that an arm builds for the bytes `first..=last`. -/
structure ByteCase where
  first : Nat
  last : Nat
  outcome : Outcome
  deriving DecidableEq, Repr

structure ByteFunction where
  cases : List ByteCase
  otherwise : Option Outcome
  deriving DecidableEq, Repr

def isHexDigit (c : Char) : Bool := (Text.hexDigitValue? c).isSome

def hexDigits : Reader Nat := fun chars =>
  (Text.parseHex? (chars.takeWhile isHexDigit)).map fun value =>
    (value, chars.dropWhile isHexDigit)

def hexNumber : Reader Nat := do
  literal "0x"
  hexDigits

/-- A range of bytes, or one byte. -/
def bytes : Reader (Nat × Nat) := do
  let first ← hexNumber
  (do
    literal "..="
    let last ← hexNumber
    return (first, last)) <|>
  pure (first, first)

def extension : Reader Outcome := do
  literal "ExtensionInstruction"
  variant

def byteCase : Reader ByteCase := do
  literal "        "
  let bytes ← bytes
  literal " => "
  let result ← extension
  line ","
  return ⟨bytes.1, bytes.2, result⟩

def otherBytes : Reader Outcome := do
  line "        _ => \x7b"
  warning "            log::warn!(target: "
    ", \"unknown extension opcode: \x7b:#04x\x7d\", instruction & 0xFF);"
  literal "            "
  let result ← extension
  literal "\n"
  line "        \x7d"
  return result

def byteFunction : Reader ByteFunction := do
  line "/// Decodes the extension held in the low byte of `instruction`."
  line "#[allow(unused_variables, clippy::identity_op, clippy::match_single_binding)]"
  line "pub fn decode_extension(instruction: u16) -> ExtensionInstruction \x7b"
  line "    match (instruction & 0xFF) as u8 \x7b"
  let cases ← repeated byteCase
  let otherwise ← (do let result ← otherBytes; return some result) <|> pure none
  line "    \x7d"
  line "\x7d"
  line ""
  return ⟨cases, otherwise⟩

/-- The function of a text that holds the helpers and the extension dispatcher, nothing else. -/
def byteFunction? (text : String) : Option ByteFunction :=
  match (do helpers; byteFunction : Reader ByteFunction).run text.toList with
  | some (function, []) => some function
  | _ => none

section Bytes

variable {rest : List Char} {byte : Nat}

theorem run_hexDigits (chars : List Char) :
    hexDigits.run chars = (Text.parseHex? (chars.takeWhile isHexDigit)).map fun value =>
      (value, chars.dropWhile isHexDigit) := rfl

theorem parseHex?_hex : ∀ byte < 256, Text.parseHex? (Text.hex 2 byte).toList = some byte := by
  decide +kernel

theorem run_hexNumber (small : byte < 256) (stops : ∀ c ∈ rest.head?, isHexDigit c = false) :
    hexNumber.run ((Text.markedHex 2 byte).toList ++ rest) = some (byte, rest) := by
  have digits : ∀ c ∈ (Text.hex 2 byte).toList, isHexDigit c = true :=
    forall_mem_hex (p := (isHexDigit · = true)) (by decide) 2 byte
  obtain ⟨taken, dropped⟩ := takeWhile_append_of_all digits stops
  rw [Text.markedHex, String.toList_append, List.append_assoc, hexNumber, run_bind_literal,
    run_hexDigits, taken, dropped, parseHex?_hex byte small]
  rfl

theorem stops_arrow (rest : List Char) :
    ∀ c ∈ (" => ".toList ++ rest).head?, isHexDigit c = false :=
  fun _ head => by cases head; rfl

theorem run_bytes {arm : ByteArm} (first : arm.first < 256) (last : arm.last < 256)
    (rest : List Char) :
    bytes.run (arm.pattern.toList ++ (" => ".toList ++ rest)) =
      some ((arm.first, arm.last), " => ".toList ++ rest) := by
  rw [bytes, ByteArm.pattern]
  split
  · rename_i single
    rw [run_bind (run_hexNumber first (stops_arrow rest)), ← single]
    exact run_orElse_right (run_bind_eq_none (run_literal_eq_none rfl))
  · have stops (behind : List Char) :
        ∀ c ∈ ("..=".toList ++ behind).head?, isHexDigit c = false :=
      fun _ head => by cases head; rfl
    simp only [String.toList_append, List.append_assoc]
    rw [run_bind (run_hexNumber first (stops _))]
    refine run_orElse_left ?_
    rw [run_bind_literal, run_bind (run_hexNumber last (stops_arrow rest))]
    rfl

end Bytes

section Cases

variable {rest : List Char}

theorem run_extension_construct {type : OpcodeType} (legible : Legible type) (rest : List Char) :
    extension.run ((type.construct "ExtensionInstruction").toList ++ rest) =
      some (.construct type.ident type.fields, rest) := by
  simp only [toList_construct, List.append_assoc]
  rw [extension, run_bind_literal, run_variant_construct legible]

theorem run_extension_default {type : OpcodeType} (isName : IsName type.ident) (rest : List Char) :
    extension.run ((type.defaultValue "ExtensionInstruction").toList ++ rest) =
      some (.default type.ident, rest) := by
  simp only [toList_defaultValue, List.append_assoc]
  rw [extension, run_bind_literal, run_variant_default isName]

/-- What the text says about an arm. -/
def ByteCase.ofByteArm (arm : ByteArm) : ByteCase :=
  ⟨arm.first, arm.last, .construct arm.type.ident arm.type.fields⟩

/-- An arm for bytes whose names are words. -/
structure LegibleCase (arm : ByteArm) : Prop where
  first : arm.first < 256
  last : arm.last < 256
  type : Legible arm.type

theorem run_byteCase {arm : ByteArm} (legible : LegibleCase arm) (rest : List Char) :
    byteCase.run ((arm.line.toList ++ "\n".toList) ++ rest) = some (.ofByteArm arm, rest) := by
  simp only [ByteArm.line, String.toList_append, List.append_assoc, byteCase]
  rw [run_bind_literal, run_bind (run_bytes legible.first legible.last _), run_bind_literal,
    run_bind (run_extension_construct legible.type _), run_bind_line]
  rfl

/-- The lines of the arm that takes all other bytes. -/
def otherLines (nop : OpcodeType) (target : String) : List String := [
  "        _ => \x7b",
  "            log::warn!(target: " ++ Text.quoted target ++
    ", \"unknown extension opcode: \x7b:#04x\x7d\", instruction & 0xFF);",
  "            " ++ nop.defaultValue "ExtensionInstruction",
  "        \x7d"]

theorem run_otherBytes {nop : OpcodeType} (isName : IsName nop.ident) (target : String)
    (rest : List Char) :
    otherBytes.run (written (otherLines nop target) ++ rest) = some (.default nop.ident, rest) := by
  simp only [otherLines, written_cons, written_nil, List.append_assoc, List.nil_append,
    otherBytes, run_bind_line]
  rw [run_bind (run_warning ..), String.toList_append, List.append_assoc, run_bind_literal,
    run_bind (run_extension_default isName _), run_bind_literal, run_bind_line]
  rfl

/-- The arm that takes all other bytes names no byte. -/
theorem run_byteCase_eq_none (nop : OpcodeType) (target : String) (rest : List Char) :
    byteCase.run (written (otherLines nop target) ++ rest) = none := by
  rw [otherLines, written_cons, List.append_assoc]
  generalize "\n".toList ++ _ ++ rest = behind
  have split : "        _ => \x7b".toList ++ behind =
    "        ".toList ++ ("_ => \x7b".toList ++ behind) := rfl
  rw [split, byteCase, run_bind_literal]
  refine run_bind_eq_none (run_bind_eq_none (run_bind_eq_none ?_))
  exact run_literal_eq_none rfl

/-- What the text says about the extension dispatcher. -/
def ByteFunction.ofByteDispatch (dispatch : ByteDispatch) (nop : OpcodeType) : ByteFunction :=
  ⟨dispatch.arms.map .ofByteArm, if dispatch.hasDefault then some (.default nop.ident) else none⟩

theorem run_byteFunction {dispatch : ByteDispatch} {nop : OpcodeType}
    (legible : ∀ arm ∈ dispatch.arms, LegibleCase arm) (isName : IsName nop.ident)
    (target : String) (rest : List Char) :
    byteFunction.run (written (dispatch.lines target nop) ++ rest) =
      some (.ofByteDispatch dispatch nop, rest) := by
  have text : dispatch.lines target nop =
      ["/// Decodes the extension held in the low byte of `instruction`.",
        "#[allow(unused_variables, clippy::identity_op, clippy::match_single_binding)]",
        "pub fn decode_extension(instruction: u16) -> ExtensionInstruction \x7b",
        "    match (instruction & 0xFF) as u8 \x7b"] ++
        dispatch.arms.map ByteArm.line ++
        (if dispatch.hasDefault then otherLines nop target else []) ++ ["    \x7d", "\x7d", ""] :=
    rfl
  have chosen {behind : List Char} (ended : byteCase.run behind = none) :
      (repeated byteCase).run (written (dispatch.arms.map ByteArm.line) ++ behind) =
        some (dispatch.arms.map .ofByteArm, behind) :=
    run_repeated_lines (fun arm member rest => run_byteCase (legible arm member) rest) ended
  rw [text, byteFunction, ByteFunction.ofByteDispatch]
  simp only [written_append, written_cons, written_nil, List.append_assoc, List.nil_append,
    run_bind_line]
  cases dispatch.hasDefault with
  | true =>
    have others (behind : List Char) :
        ((do let result ← otherBytes; return some result) <|> pure none :
          Reader (Option Outcome)).run (written (otherLines nop target) ++ behind) =
            some (some (.default nop.ident), behind) :=
      run_orElse_left (run_bind (run_otherBytes isName target behind))
    rw [if_pos rfl, if_pos rfl, run_bind (chosen (run_byteCase_eq_none nop target _)),
      run_bind (others _), run_bind_line, run_bind_line, run_bind_line]
    rfl
  | false =>
    have nothing (behind : List Char) :
        ((do let result ← otherBytes; return some result) <|> pure none :
          Reader (Option Outcome)).run ("    \x7d".toList ++ behind) =
            some (none, "    \x7d".toList ++ behind) :=
      run_orElse_right (run_bind_eq_none (run_bind_eq_none
        (run_bind_eq_none (run_literal_eq_none rfl))))
    rw [if_neg Bool.false_ne_true, if_neg Bool.false_ne_true, written_nil, List.nil_append,
      run_bind (chosen (run_bind_eq_none (run_literal_eq_none rfl))), run_bind (nothing _),
      run_bind_line, run_bind_line, run_bind_line]
    rfl

end Cases

end Source

namespace Program

variable (program : Program)

/-- The part of the text that defines the extension dispatcher. -/
def byteFunctionText : String :=
  String.join
    ((program.byteDispatch.lines program.logTarget program.extensionNop).map (· ++ "\n"))

/-- The parts of the text that decode extensions: bit helpers and the extension dispatcher. -/
def byteText : String := helperText ++ program.byteFunctionText

theorem byteFunctionText_isInfix :
    program.byteFunctionText.toList <:+: program.text.toList := by
  rw [byteFunctionText, Source.toList_join_lines, toList_text]
  exact Source.written_isInfix ⟨_, _, (List.append_assoc _ _ _).symm⟩

end Program

namespace Source

/-- The function that a program's text states is the extension dispatcher of the program. -/
theorem byteFunction?_byteText {program : Program}
    (legible : ∀ arm ∈ program.byteDispatch.arms, LegibleCase arm)
    (isName : IsName program.extensionNop.ident) :
    byteFunction? program.byteText =
      some (.ofByteDispatch program.byteDispatch program.extensionNop) := by
  have read := run_byteFunction legible isName program.logTarget []
  rw [List.append_nil] at read
  rw [byteFunction?, Program.byteText, Program.byteFunctionText, String.toList_append,
    toList_helperText, toList_join_lines, run_bind run_helpers, read]

end Source

end DspIsa.Generated
