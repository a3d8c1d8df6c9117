import DspIsa.Generated.Program
import DspIsa.Text.Quoted

/-! The Rust text of a generated decoder, line by line: helpers, opcode types, the extension
dispatcher, the dispatch functions and the entry point. -/
namespace DspIsa.Generated

/-- A line that opens a block. -/
def opening (head : String) : String := head ++ " \x7b"

def allowTypes : String := "#[allow(non_camel_case_types)]"

def allowFunctions : String :=
  "#[allow(unused_variables, clippy::identity_op, clippy::match_single_binding)]"

def deriveLine : String := "#[derive(Debug, Clone, Copy, PartialEq, Eq, Hash)]"

def deriveDefaultLine : String := "#[derive(Debug, Clone, Copy, PartialEq, Eq, Hash, Default)]"

def Input.render : Input → String
  | .instruction => "instruction"
  | .nextInstruction => "next_instruction"

def FieldRead.render : FieldRead → String
  | .whole input => input.render
  | .bit input index => s!"bit({input.render}, {index})"
  | .bits input low high => s!"bits({input.render}, {low}, {high})"

def Field.render (field : Field) : String := field.name ++ ": " ++ field.source.render

namespace OpcodeType

/-- The lines that declare the type. -/
def declaration (type : OpcodeType) : List String :=
  let body :=
    if type.fields.isEmpty then ["pub struct " ++ type.ident ++ " \x7b\x7d"]
    else
      opening ("pub struct " ++ type.ident) ::
        type.fields.map (fun field => "    pub " ++ field.name ++ ": u16,") ++ ["\x7d"]
  allowTypes :: deriveDefaultLine :: body ++ [""]

/-- The expression that builds a value of the type from the inputs. -/
def construct (type : OpcodeType) (family : String) : String :=
  let fields :=
    if type.fields.isEmpty then "\x7b\x7d"
    else "\x7b " ++ ", ".intercalate (type.fields.map Field.render) ++ " \x7d"
  s!"{family}::{type.ident}({type.ident} {fields})"

/-- The expression for the value of the type whose fields are all zero. -/
def defaultValue (type : OpcodeType) (family : String) : String :=
  s!"{family}::{type.ident}({type.ident}::default())"

end OpcodeType

/-- The enumeration of the opcodes of a family. -/
def opcodeEnum (name : String) (types : List OpcodeType) : List String :=
  [allowTypes, deriveLine, opening ("pub enum " ++ name)] ++
    types.map (fun type => "    " ++ type.ident ++ ",") ++ ["\x7d", ""]

/-- The enumeration of the values of a family, one variant around each opcode type. -/
def valueEnum (name : String) (types : List OpcodeType) : List String :=
  [allowTypes, deriveLine, opening ("pub enum " ++ name)] ++
    types.map (fun type => s!"    {type.ident}({type.ident}),") ++ ["\x7d", ""]

/-- The function from the values of a family to their opcodes. -/
def opcodeFunction (values opcodes : String) (types : List OpcodeType) : List String :=
  [opening ("    pub const fn opcode(&self) -> " ++ opcodes), opening "        match self"] ++
    types.map (fun type =>
      s!"            {values}::{type.ident}(_) => {opcodes}::{type.ident},") ++
    ["        \x7d", "    \x7d"]

/-- The function from the main instructions to their widths. -/
def sizeFunction (types : List OpcodeType) : List String :=
  ["    /// Encoded width in bits.", opening "    pub const fn size(&self) -> u32",
    opening "        match self"] ++
    types.map (fun type => s!"            DspInstruction::{type.ident}(_) => {type.bits},") ++
    ["        \x7d", "    \x7d"]

def mainTypeLines (types : List OpcodeType) : List String :=
  opcodeEnum "DspOpcode" types ++ types.flatMap OpcodeType.declaration ++
    valueEnum "DspInstruction" types ++ [opening "impl DspInstruction"] ++
    opcodeFunction "DspInstruction" "DspOpcode" types ++ [""] ++ sizeFunction types ++ ["\x7d", ""]

def extensionTypeLines (types : List OpcodeType) : List String :=
  opcodeEnum "ExtensionOpcode" types ++ types.flatMap OpcodeType.declaration ++
    valueEnum "ExtensionInstruction" types ++ [opening "impl ExtensionInstruction"] ++
    opcodeFunction "ExtensionInstruction" "ExtensionOpcode" types ++ ["\x7d", ""]

def bitHelperLines : List String := [
  "#[inline(always)]",
  "#[allow(dead_code)]",
  "const fn bit(word: u16, index: u32) -> u16 \x7b",
  "    (word >> index) & 0x1",
  "\x7d",
  "",
  "#[inline(always)]",
  "#[allow(dead_code)]",
  "const fn bits(word: u16, low: u32, high: u32) -> u16 \x7b",
  "    (word >> low) & (((1u32 << (high - low + 1)) - 1) as u16)",
  "\x7d",
  ""]

def decodedTypeLines : List String := [
  "/// A main instruction together with its optional extension.",
  deriveLine,
  "pub struct DecodedInstruction \x7b",
  "    pub main: DspInstruction,",
  "    pub has_extension: bool,",
  "    pub extension: ExtensionInstruction,",
  "\x7d",
  ""]

def ByteArm.pattern (arm : ByteArm) : String :=
  if arm.first = arm.last then Text.markedHex 2 arm.first
  else Text.markedHex 2 arm.first ++ "..=" ++ Text.markedHex 2 arm.last

def ByteArm.line (arm : ByteArm) : String :=
  "        " ++ arm.pattern ++ " => " ++ arm.type.construct "ExtensionInstruction" ++ ","

def ByteDispatch.lines (dispatch : ByteDispatch) (logTarget : String) (nop : OpcodeType) :
    List String :=
  let default := [
    "        _ => \x7b",
    "            log::warn!(target: " ++ Text.quoted logTarget ++
      ", \"unknown extension opcode: \x7b:#04x\x7d\", instruction & 0xFF);",
    "            " ++ nop.defaultValue "ExtensionInstruction",
    "        \x7d"]
  ["/// Decodes the extension held in the low byte of `instruction`.", allowFunctions,
    "pub fn decode_extension(instruction: u16) -> ExtensionInstruction \x7b",
    "    match (instruction & 0xFF) as u8 \x7b"] ++
    dispatch.arms.map ByteArm.line ++ (if dispatch.hasDefault then default else []) ++
    ["    \x7d", "\x7d", ""]

def IndexBit.line (entry : IndexBit) : String :=
  s!"    index |= ((instruction >> {entry.bit}) & 0x1) << {entry.slotBit};"

def Arm.line (arm : Arm) : String :=
  let result := match arm.body with
    | .construct type => type.construct "DspInstruction"
    | .call function => function ++ "(instruction, next_instruction)"
  s!"        {arm.index} => {result},"

def FunctionBody.lines (logTarget : String) : FunctionBody → List String
  | .direct type => ["    " ++ type.construct "DspInstruction"]
  | .unknown nop => [
      "    log::warn!(target: " ++ Text.quoted logTarget ++
        ", \"unknown instruction opcode: \x7b:#06x\x7d\", instruction);",
      "    " ++ nop.defaultValue "DspInstruction"]
  | .dispatch indexBits arms nop =>
    ["    let mut index: u16 = 0;"] ++ indexBits.map IndexBit.line ++
      ["    match index \x7b"] ++ arms.map Arm.line ++ [
        "        _ => \x7b",
        "            log::warn!(target: " ++ Text.quoted logTarget ++
          ", \"unknown instruction opcode: \x7b:#06x\x7d (index: \x7b\x7d)\", instruction, index);",
        "            " ++ nop.defaultValue "DspInstruction",
        "        \x7d",
        "    \x7d"]

def DispatchFunction.lines (logTarget : String) (function : DispatchFunction) : List String :=
  let visibility := if function.isPublic then "pub " else ""
  [allowFunctions, visibility ++ "fn " ++ function.name ++
    "(instruction: u16, next_instruction: u16) -> DspInstruction \x7b"] ++
    function.body.lines logTarget ++ ["\x7d", ""]

def entryLines (extensionNop : OpcodeType) : List String := [
  "/// Decodes the main instruction and, when the top nibble of `instruction` is 4 or",
  "/// above, the extension in its low byte.",
  "/// A top nibble of 3 carries a 7-bit extension that is not decoded yet.",
  allowFunctions,
  "pub fn decode_instruction_with_extension(instruction: u16, next_instruction: u16) -> " ++
    "DecodedInstruction \x7b",
  "    let main = decode_instruction(instruction, next_instruction);",
  "    if (instruction >> 12) >= 4 \x7b",
  "        DecodedInstruction \x7b",
  "            main,",
  "            has_extension: true,",
  "            extension: decode_extension(instruction),",
  "        \x7d",
  "    \x7d else \x7b",
  "        DecodedInstruction \x7b",
  "            main,",
  "            has_extension: false,",
  "            extension: " ++ extensionNop.defaultValue "ExtensionInstruction" ++ ",",
  "        \x7d",
  "    \x7d",
  "\x7d"]

namespace Program

def headerLines (program : Program) : List String := [
  "// @generated by dsp-codegen. Do not edit by hand.",
  "// Source: " ++ program.sourceLabel,
  "// Source sha256: " ++ program.sourceDigest,
  s!"// {program.instructionCount} instruction(s), {program.extensionCount} extension(s)",
  ""]

def lines (program : Program) : List String :=
  program.headerLines ++ bitHelperLines ++ mainTypeLines program.mainTypes ++
    extensionTypeLines program.extensionTypes ++ decodedTypeLines ++
    program.byteDispatch.lines program.logTarget program.extensionNop ++
    program.functions.flatMap (DispatchFunction.lines program.logTarget) ++
    entryLines program.extensionNop

/-- The whole text; every line is ended. -/
def text (program : Program) : String := String.join (program.lines.map (· ++ "\n"))

end Program

end DspIsa.Generated
