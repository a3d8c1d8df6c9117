/-! Hexadecimal text. Digits are lower case unless a name says otherwise, and a width is the
least number of digits. -/
namespace DspIsa.Text

def hex (digits value : Nat) : String :=
  String.ofList ((Nat.toDigits 16 value).leftpad digits '0')

/-- Hexadecimal text behind its `0x` mark. -/
def markedHex (digits value : Nat) : String := "0x" ++ hex digits value

def upperHex (digits value : Nat) : String := (hex digits value).map Char.toUpper

/-- The value of one hexadecimal digit of either case. -/
def hexDigitValue? (c : Char) : Option Nat :=
  if '0' ≤ c ∧ c ≤ '9' then some (c.toNat - '0'.toNat)
  else if 'a' ≤ c ∧ c ≤ 'f' then some (c.toNat - 'a'.toNat + 10)
  else if 'A' ≤ c ∧ c ≤ 'F' then some (c.toNat - 'A'.toNat + 10)
  else none

/-- Reads hexadecimal digits, at least one of them, with nothing between. -/
def parseHex? : List Char → Option Nat
  | [] => none
  | digits => digits.foldlM (fun value c => (hexDigitValue? c).map (16 * value + ·)) 0

end DspIsa.Text
