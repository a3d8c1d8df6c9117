import DspIsa.Source
import DspIsa.Text.Blank

/-! Tokens of a spec text. A cursor walks over the text and hands out one token at a time; it
skips white space and the comments that open a line, and refuses control characters. -/
namespace DspIsa

inductive TokenKind where
  | quote
  | word
  | star
  | newline
  | eof
  deriving DecidableEq, Repr

structure Token where
  kind : TokenKind
  lexeme : String
  start : Position
  deriving DecidableEq, Repr

/-- The position just behind a token. -/
def Token.stop (token : Token) : Position :=
  ⟨token.start.line, token.start.column + token.lexeme.length⟩

/-- A control character that stands outside comments. -/
structure ControlCharacter where
  char : Char
  position : Position
  deriving DecidableEq, Repr

/-- A place in a text: what is left of it, the line, how many characters of the line have
passed, and whether a comment or a quote mark may still open the line. -/
structure Cursor where
  rest : List Char
  line : Nat
  column : Nat
  lineStart : Bool
  deriving DecidableEq, Repr

/-- Blank characters within a line. -/
def isInlineBlank (c : Char) : Bool := c != '\n' && Text.isBlank c

def isForbidden (c : Char) : Bool :=
  Text.isControl c && !(c == '\t' || c == '\r' || c == '\n')

def isWordChar (c : Char) : Bool := !(Text.isBlank c || c == '*' || isForbidden c)

namespace Cursor

def ofText (text : String) : Cursor := ⟨text.toList, 1, 0, true⟩

def position (cursor : Cursor) : Position := ⟨cursor.line, cursor.column + 1⟩

/-- Moves over the characters that satisfy `p`, none of which ends the line. -/
def skipWhile (p : Char → Bool) (cursor : Cursor) : Cursor :=
  { cursor with
    rest := cursor.rest.dropWhile p
    column := cursor.column + (cursor.rest.takeWhile p).length }

/-- Moves to the next character that matters. -/
def skipIgnored (cursor : Cursor) : Cursor :=
  let cursor := cursor.skipWhile isInlineBlank
  if cursor.lineStart && cursor.rest.head? == some '#' then cursor.skipWhile (· != '\n')
  else cursor

/-- The token that begins with `c`, or the refusal of `c`, for a cursor that stands on it. -/
def take (cursor : Cursor) (c : Char) (rest : List Char) :
    Except ControlCharacter Token × Cursor :=
  let after : Cursor := ⟨rest, cursor.line, cursor.column + 1, false⟩
  if c == '\n' then (.ok ⟨.newline, "\n", cursor.position⟩, ⟨rest, cursor.line + 1, 0, true⟩)
  else if c == '*' then (.ok ⟨.star, "*", cursor.position⟩, after)
  else if c == '\'' && cursor.lineStart then (.ok ⟨.quote, "'", cursor.position⟩, after)
  else if isForbidden c then (.error ⟨c, cursor.position⟩, after)
  else
    let word := c :: rest.takeWhile isWordChar
    (.ok ⟨.word, String.ofList word, cursor.position⟩, after.skipWhile isWordChar)

/-- The next token, with the cursor behind it. At the end of the text the cursor stays. -/
def next (cursor : Cursor) : Except ControlCharacter Token × Cursor :=
  let cursor := cursor.skipIgnored
  match cursor.rest with
  | [] => (.ok ⟨.eof, "", cursor.position⟩, cursor)
  | c :: rest => cursor.take c rest

theorem length_skipWhile_le (p : Char → Bool) (cursor : Cursor) :
    (cursor.skipWhile p).rest.length ≤ cursor.rest.length :=
  (List.dropWhile_sublist p).length_le

theorem length_skipIgnored_le (cursor : Cursor) :
    cursor.skipIgnored.rest.length ≤ cursor.rest.length := by
  unfold skipIgnored
  dsimp only
  split
  · exact Nat.le_trans (length_skipWhile_le _ _) (length_skipWhile_le _ _)
  · exact length_skipWhile_le _ _

theorem length_take_le (cursor : Cursor) (c : Char) (rest : List Char) :
    (cursor.take c rest).2.rest.length ≤ rest.length := by
  unfold take
  dsimp only
  split
  · exact Nat.le_refl _
  split
  · exact Nat.le_refl _
  split
  · exact Nat.le_refl _
  split
  · exact Nat.le_refl _
  · exact length_skipWhile_le _ _

/-- Whether a result is the end of the text. -/
def isEnd : Except ControlCharacter Token → Bool
  | .ok token => token.kind == .eof
  | .error _ => false

theorem isEnd_take (cursor : Cursor) (c : Char) (rest : List Char) :
    isEnd (cursor.take c rest).1 = false := by
  unfold take
  dsimp only
  repeat' split
  all_goals rfl

/-- Unless it reaches the end of the text, a step leaves less of it. -/
theorem length_next_lt (cursor : Cursor) (going : isEnd cursor.next.1 = false) :
    cursor.next.2.rest.length < cursor.rest.length := by
  have ignored := length_skipIgnored_le cursor
  unfold next at going ⊢
  dsimp only at going ⊢
  split
  · rename_i ended
    simp [ended, isEnd] at going
  · rename_i c rest found
    have taken := length_take_le cursor.skipIgnored c rest
    rw [found, List.length_cons] at ignored
    omega

/-- Every result up to the end of the text, going on behind a refused character. -/
def results (cursor : Cursor) : List (Except ControlCharacter Token) :=
  if going : isEnd cursor.next.1 = false then
    have := length_next_lt cursor going
    cursor.next.1 :: cursor.next.2.results
  else [cursor.next.1]
termination_by cursor.rest.length

end Cursor

/-- What one pass reads: the tokens before it stopped, the refused character if that is why it
stopped, and the cursor behind the last thing read. -/
structure Reading where
  tokens : List Token
  refused : Option ControlCharacter
  cursor : Cursor
  deriving DecidableEq, Repr

namespace Cursor

/-- Reads up to the end of the text or the first refused character. -/
def read (cursor : Cursor) : Reading :=
  match step : cursor.next with
  | (.error refused, after) => ⟨[], some refused, after⟩
  | (.ok token, after) =>
    if ended : token.kind = .eof then ⟨[token], none, after⟩
    else
      have : after.rest.length < cursor.rest.length := by
        have shorter := length_next_lt cursor (by simp [step, isEnd, ended])
        rwa [step] at shorter
      let reading := after.read
      { reading with tokens := token :: reading.tokens }
termination_by cursor.rest.length

end Cursor

/-- All tokens of a text, the last one its end, or the first refused character. -/
def Token.ofText (text : String) : Except ControlCharacter (List Token) :=
  let reading := (Cursor.ofText text).read
  match reading.refused with
  | some refused => .error refused
  | none => .ok reading.tokens

end DspIsa
