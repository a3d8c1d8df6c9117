/-! Text for a place that is no terminal. Escape sequences and control characters are left out;
what remains says in a file what the whole would say on a screen. -/
namespace DspIsa.Text

/-- The control characters that lay out text: tab, line feed, form feed and carriage return. -/
def isLayout (c : Char) : Bool := c = '\t' || c = '\n' || c = '\x0c' || c = '\r'

/-- The control characters of ASCII that never show. -/
def isSilent (c : Char) : Bool := (c.toNat < 0x20 && !isLayout c) || c.toNat = 0x7F

/-- What a terminal is reading. -/
inductive TerminalMode where
  | text
  | escape
  | escapeIntermediate
  | controlSequence
  | deviceEntry
  | deviceParameter
  | deviceIntermediate
  | controlString
  | systemCommand
  deriving DecidableEq, Repr

namespace TerminalMode

/-- What the character behind an escape opens. -/
def opened (c : Char) : TerminalMode :=
  let n := c.toNat
  if c = '[' then .controlSequence
  else if c = ']' then .systemCommand
  else if c = 'P' then .deviceEntry
  else if c = 'X' ∨ c = '^' ∨ c = '_' then .controlString
  else if 0x20 ≤ n ∧ n ≤ 0x2F then .escapeIntermediate
  else if 0x30 ≤ n ∧ n ≤ 0x7E then .text
  else .escape

/-- The byte 9C closes a control string, also as a part of a longer character. -/
def closesString (c : Char) : Bool := (String.utf8EncodeChar c).contains 0x9C

/-- The mode after a character that does not show. An escape opens a sequence in every mode, and
the characters 18 and 1A break one off. -/
def next (mode : TerminalMode) (c : Char) : TerminalMode :=
  let n := c.toNat
  if n = 0x1B then .escape
  else if n = 0x18 ∨ n = 0x1A then .text
  else
    match mode with
    | .text => .text
    | .escape => opened c
    | .escapeIntermediate => if 0x30 ≤ n ∧ n ≤ 0x7E then .text else mode
    | .controlSequence => if 0x40 ≤ n ∧ n ≤ 0x7E then .text else mode
    | .deviceEntry =>
      if 0x20 ≤ n ∧ n ≤ 0x2F then .deviceIntermediate
      else if 0x30 ≤ n ∧ n ≤ 0x3F then .deviceParameter
      else if 0x40 ≤ n ∧ n ≤ 0x7E then .controlString
      else mode
    | .deviceParameter =>
      if 0x20 ≤ n ∧ n ≤ 0x2F then .deviceIntermediate
      else if 0x3C ≤ n ∧ n ≤ 0x7E then .controlString
      else mode
    | .deviceIntermediate => if 0x30 ≤ n ∧ n ≤ 0x7E then .controlString else mode
    | .controlString => if closesString c then .text else mode
    | .systemCommand => if n = 0x07 then .text else mode

/-- Whether layout inside the sequence is carried out at once. The strings swallow it. -/
def honoursLayout : TerminalMode → Bool
  | .escape | .escapeIntermediate | .controlSequence => true
  | _ => false

end TerminalMode

/-- A terminal that reads text. Layout inside a sequence suspends the sequence: what follows shows
until a silent character, with which the sequence goes on. -/
structure Terminal where
  mode : TerminalMode
  suspended : Bool
  deriving DecidableEq, Repr

namespace Terminal

def start : Terminal := ⟨.text, false⟩

/-- Whether characters are taken as text. -/
def reading (terminal : Terminal) : Bool := terminal.suspended || terminal.mode = .text

def shows (terminal : Terminal) (c : Char) : Bool :=
  !isSilent c && (terminal.reading || (terminal.mode.honoursLayout && isLayout c))

/-- One character on. In a suspended sequence a character beyond ASCII ends the sequence. -/
def step (terminal : Terminal) (c : Char) : Terminal :=
  if terminal.shows c then
    let mode := if terminal.reading && 0x80 ≤ c.toNat then .text else terminal.mode
    ⟨mode, mode ≠ .text⟩
  else ⟨terminal.mode.next c, false⟩

/-- The characters of a text that show. -/
def shown (terminal : Terminal) : List Char → List Char
  | [] => []
  | c :: rest =>
    if terminal.shows c then c :: (terminal.step c).shown rest else (terminal.step c).shown rest

theorem isSilent_of_mem_shown {c : Char} {chars : List Char} {terminal : Terminal}
    (h : c ∈ terminal.shown chars) : isSilent c = false := by
  induction chars generalizing terminal with
  | nil => simp [shown] at h
  | cons d rest ih =>
    rw [shown] at h
    split at h
    · rename_i visible
      rcases List.mem_cons.mp h with rfl | member
      · simp only [shows, Bool.and_eq_true, Bool.not_eq_true'] at visible
        exact visible.1
      · exact ih member
    · exact ih h

/-- Text without silent characters holds no sequence and shows as it is. -/
theorem shown_eq_self {chars : List Char} (h : ∀ c ∈ chars, isSilent c = false) :
    start.shown chars = chars := by
  induction chars with
  | nil => rfl
  | cons c rest ih =>
    have visible : start.shows c = true := by simp [shows, reading, start, h c (by simp)]
    have stays : start.step c = start := by
      rw [step, if_pos visible]
      simp [start]
    rw [shown, if_pos visible, stays, ih fun d member => h d (by simp [member])]

end Terminal

/-- A text without escape sequences and silent characters. -/
def withoutSequences (text : String) : String :=
  String.ofList (Terminal.start.shown text.toList)

end DspIsa.Text
