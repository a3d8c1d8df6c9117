import DspIsa.Text.GraphemeExtend
import DspIsa.Text.Hex
import DspIsa.Text.Unprintable

/-! String literals of the generated text. Characters that would not show, or would join the one
before them, are written by their code point. -/
namespace DspIsa.Text

/-- The fillers of the Korean alphabet, letters without a shape. -/
def isHangulFiller (c : Char) : Bool :=
  c = '\u115f' || c = '\u1160' || c = '\u3164' || c = '\uffa0'

/-- The halfwidth sound marks of katakana, which have a width of their own. -/
def isHalfwidthSoundMark (c : Char) : Bool := c = '\uff9e' || c = '\uff9f'

/-- Whether a character is written by its code point. -/
def needsCode (c : Char) : Bool :=
  isUnprintable c || isHangulFiller c || (isGraphemeExtend c && !isHalfwidthSoundMark c)

/-- The way a character is written between double quotes. -/
def escape (c : Char) : String :=
  if c = '\x00' then "\\0"
  else if c = '\t' then "\\t"
  else if c = '\r' then "\\r"
  else if c = '\n' then "\\n"
  else if c = '"' then "\\\""
  else if c = '\\' then "\\\\"
  else if needsCode c then "\\u\x7b" ++ hex 1 c.toNat ++ "\x7d"
  else c.toString

/-- A text as a literal, with its quotes. -/
def quoted (text : String) : String := "\"" ++ String.join (text.toList.map escape) ++ "\""

end DspIsa.Text
