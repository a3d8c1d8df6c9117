import DspIsa.Diagnostic
import DspIsa.Pattern
import DspIsa.Token

/-! One line of a spec: an opcode, a star and a bit pattern. A line that opens with a quote mark
is an extension; its first two groups behind the star belong to the main word and are skipped. -/
namespace DspIsa.Spec

/-- What is wrong with a line, in the order in which faults win. -/
inductive LineFault where
  | missingSeparator
  | extraSeparator
  | missingOpcode
  | pattern (fault : PatternFault)
  deriving DecidableEq, Repr

namespace LineFault

def code : LineFault → String
  | .missingSeparator => "parser.missing-separator"
  | .extraSeparator => "parser.extra-separator"
  | .missingOpcode => "parser.missing-opcode"
  | .pattern (.width ..) => "parser.pattern-width"
  | .pattern (.digit ..) => "parser.pattern-digit"

def message : LineFault → String
  | .missingSeparator => "expected '*' between the opcode and the bit pattern"
  | .extraSeparator => "only one '*' may separate the opcode from the bit pattern"
  | .missingOpcode => "expected an opcode before '*'"
  | .pattern fault => fault.message

end LineFault

/-- A faulty line, with the token that shows the fault. -/
structure MalformedLine where
  fault : LineFault
  token : Token
  deriving DecidableEq, Repr

def MalformedLine.report (path : String) (line : MalformedLine) : Diagnostic where
  phase := .parser
  severity := .error
  code := line.fault.code
  message := line.fault.message
  span := some ⟨path, line.token.start, line.token.stop⟩

/-- The tokens of a well-separated line. -/
structure LineParts where
  opcode : List Token
  star : Token
  groups : List Token
  deriving DecidableEq, Repr

/-- Splits the tokens behind the quote mark at the only star; `first` opens the line. -/
def LineParts.ofTokens (first : Token) (body : List Token) : Except MalformedLine LineParts :=
  match body.span fun token => token.kind != .star with
  | (_, []) => .error ⟨.missingSeparator, first⟩
  | (opcode, star :: groups) =>
    match groups.find? fun token => token.kind == .star with
    | some extra => .error ⟨.extraSeparator, extra⟩
    | none =>
      if opcode.isEmpty then .error ⟨.missingOpcode, star⟩
      else .ok ⟨opcode, star, groups⟩

namespace LineParts

def lexemes (tokens : List Token) : List String := tokens.map (·.lexeme)

def name (parts : LineParts) : String := "_".intercalate (lexemes parts.opcode)

def mnemonic (parts : LineParts) : String := (lexemes parts.opcode).headD ""

/-- How many groups behind the star are not part of the pattern. -/
def skipped : PatternKind → Nat
  | .main => 0
  | .extension => 2

def patternText (parts : LineParts) (kind : PatternKind) : String :=
  String.join (lexemes (parts.groups.drop (skipped kind)))

/-- The token at which a fault of the pattern is reported. -/
def anchor (parts : LineParts) : Token := parts.groups.headD parts.star

end LineParts

/-- Reads the tokens of one line; `none` for a line without any. -/
def readLine (path : String) : List Token → Option (Except MalformedLine Instruction)
  | [] => none
  | first :: rest => some do
    let kind := if first.kind = .quote then PatternKind.extension else .main
    let body := if first.kind = .quote then rest else first :: rest
    let parts ← LineParts.ofTokens first body
    match BitPattern.scan kind (parts.patternText kind) with
    | .error fault => throw ⟨.pattern fault, parts.anchor⟩
    | .ok pattern => pure {
        name := parts.name
        mnemonic := parts.mnemonic
        operands := pattern.operands
        fixedMask := pattern.fixedMask
        fixedValue := pattern.fixedValue
        width := pattern.width
        span := ⟨path, first.start, (rest.getLastD first).stop⟩ }

end DspIsa.Spec
