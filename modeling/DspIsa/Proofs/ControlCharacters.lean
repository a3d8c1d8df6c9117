import DspIsa.Proofs.LineTokens

/-! Control characters in a spec text. The first one outside comments that does not count as white
space is refused. White space is passed over before control characters are looked for, so the three
control characters that are white space as well get through. -/
namespace DspIsa

theorem isForbidden_and_isBlank_iff {c : Char} :
    isForbidden c = true ∧ Text.isBlank c = true ↔ c ∈ ['\x0b', '\x0c', '\u0085'] := by
  have same (d : Char) : c = d ↔ c.toNat = d.toNat := Char.toNat_inj.symm
  simp only [isForbidden, Text.isControl, Text.isBlank, List.mem_cons, List.not_mem_nil, or_false,
    same, Bool.and_eq_true, Bool.or_eq_true, Bool.not_eq_true', Bool.or_eq_false_iff,
    decide_eq_true_eq, beq_iff_eq, beq_eq_false_iff_ne, ne_eq]
  have places : '\t'.toNat = 0x09 ∧ '\r'.toNat = 0x0D ∧ '\n'.toNat = 0x0A ∧
    '\x0b'.toNat = 0x0B ∧ '\x0c'.toNat = 0x0C ∧ '\u0085'.toNat = 0x85 := by decide
  simp only [places]
  omega

namespace ControlCharacter

/-- The characters of a stretch that satisfy `p`, with their places. -/
def among (p : Char → Bool) (place : Position) (chars : List Char) : List ControlCharacter :=
  ((chars.zipIdx place.column).filter fun entry => p entry.1).map fun entry =>
    ⟨entry.1, place.line, entry.2⟩

variable {p : Char → Bool} {place : Position} {c : Char} {chars rest : List Char}

@[simp] theorem among_nil : among p place [] = [] := rfl

theorem among_of_pos (selected : p c = true) :
    among p place (c :: rest) = ⟨c, place⟩ :: among p (place.right 1) rest := by
  simp [among, selected, Position.right]

theorem among_of_neg (other : p c = false) :
    among p place (c :: rest) = among p (place.right 1) rest := by
  simp [among, other, Position.right]

/-- A beginning without such characters only moves the place. -/
theorem among_append (free : ∀ c ∈ chars, p c = false) :
    among p place (chars ++ rest) = among p (place.right chars.length) rest := by
  induction chars generalizing place with
  | nil => rfl
  | cons c chars ih =>
    obtain ⟨other, more⟩ := List.forall_mem_cons.mp free
    rw [List.cons_append, among_of_neg other, ih more, Position.right_right, List.length_cons,
      Nat.add_comm]

theorem among_eq_nil (free : ∀ c ∈ chars, p c = false) : among p place chars = [] := by
  rw [← List.append_nil chars, among_append free, among_nil]

theorem filter_among (p q : Char → Bool) (place : Position) (chars : List Char) :
    (among p place chars).filter (fun found => q found.char) =
      among (fun c => p c && q c) place chars := by
  simp [among, List.filter_map, List.filter_filter, Function.comp_def, Bool.and_comm]

theorem of_mem_among {found : ControlCharacter} (member : found ∈ among p place chars) :
    p found.char = true := by
  obtain ⟨entry, listed, rfl⟩ := List.mem_map.mp member
  exact (List.mem_filter.mp listed).2

end ControlCharacter

open ControlCharacter (among)

namespace Cursor

variable {chars tail : List Char} {line column : Nat}

/-- What is refused behind a line does not depend on the line. -/
theorem refused_of_endsLine (ends : EndsLine tail) (column : Nat) (start : Bool) :
    (⟨tail, line, column, start⟩ : Cursor).read.refused =
      (⟨tail, line, 0, true⟩ : Cursor).read.refused := by
  cases tail with
  | nil => rw [read_end, read_end]
  | cons c rest =>
    rw [ends c rfl, read_newline, read_newline, Reading.refused_after, Reading.refused_after]

/-- What is refused first in the rest of a line, or else behind it. -/
theorem refused_stretch (ends : EndsLine tail) (unbroken : '\n' ∉ chars) :
    (⟨chars ++ tail, line, column, false⟩ : Cursor).read.refused =
      (among isRefused ⟨line, column + 1⟩ chars).head?.or
        (⟨tail, line, 0, true⟩ : Cursor).read.refused := by
  rcases clean_or_split chars with clean | ⟨before, c, rest, rfl, clean, refused⟩
  · rw [read_clean (ends.stops isWordChar_newline) unbroken clean, Reading.refused_after,
      ControlCharacter.among_eq_nil (clean_iff.mp clean)]
    exact refused_of_endsLine ends _ false
  · have stops : ∀ d ∈ (c :: (rest ++ tail)).head?, isWordChar d = false := by
      simpa using isWordChar_of_isRefused refused
    have front : '\n' ∉ before := fun member => unbroken (List.mem_append_left _ member)
    rw [List.append_assoc, List.cons_append, read_clean stops front clean, Reading.refused_after,
      read_refused refused, ControlCharacter.among_append (clean_iff.mp clean),
      ControlCharacter.among_of_pos refused, Position.right, Nat.add_right_comm]
    rfl

end Cursor

namespace Spec

/-- The characters of a line that are outside a comment. -/
def TextLine.outside (line : TextLine) : List Char :=
  if line.isComment then line.chars.takeWhile Text.isBlank else line.chars

/-- The characters of a text that satisfy `p` and are outside comments, with their places. -/
def outside (p : Char → Bool) (source : String) : List ControlCharacter :=
  (TextLine.ofText source).flatMap fun line => among p ⟨line.number, 1⟩ line.outside

theorem filter_outside (p q : Char → Bool) (source : String) :
    (outside p source).filter (fun found => q found.char) =
      outside (fun c => p c && q c) source := by
  simp [outside, List.filter_flatMap, ControlCharacter.filter_among]

theorem of_mem_outside {p : Char → Bool} {source : String} {found : ControlCharacter}
    (member : found ∈ outside p source) : p found.char = true := by
  obtain ⟨line, -, listed⟩ := List.mem_flatMap.mp member
  exact ControlCharacter.of_mem_among listed

end Spec

/-- Nothing is refused in a comment or in the blanks in front of a line. -/
theorem Spec.TextLine.among_outside (line : TextLine) :
    among isRefused ⟨line.number, 1⟩ line.outside =
      if line.isComment then [] else among isRefused line.first line.visible := by
  have blank : ∀ c ∈ line.chars.takeWhile Text.isBlank, isRefused c = false := fun c member =>
    isRefused_eq_false_of_isBlank (List.all_eq_true.mp List.all_takeWhile c member)
  unfold outside
  split
  · exact ControlCharacter.among_eq_nil blank
  · have parts : line.chars = line.chars.takeWhile Text.isBlank ++ line.visible :=
      List.takeWhile_append_dropWhile.symm
    rw [parts, ControlCharacter.among_append blank, first, Position.right, Nat.add_comm]

namespace Cursor

variable {tail : List Char}

/-- What is refused first in a whole line, or else behind it. -/
theorem refused_textLine (line : Spec.TextLine) (ends : EndsLine tail)
    (unbroken : '\n' ∉ line.chars) :
    (⟨line.chars ++ tail, line.number, 0, true⟩ : Cursor).read.refused =
      (among isRefused ⟨line.number, 1⟩ line.outside).head?.or
        (⟨tail, line.number, 0, true⟩ : Cursor).read.refused := by
  have inner : '\n' ∉ line.visible := fun member =>
    unbroken ((List.dropWhile_sublist _).subset member)
  rw [read_blanks unbroken, ← Spec.TextLine.visible, Nat.zero_add, line.among_outside,
    Spec.TextLine.isComment, Spec.TextLine.first]
  cases shown : line.visible with
  | nil => exact refused_of_endsLine ends _ true
  | cons c rest =>
    have solid := Spec.TextLine.not_isBlank_of_visible shown
    rw [shown] at inner
    have more : '\n' ∉ rest := fun member => inner (List.mem_cons_of_mem c member)
    by_cases comment : c = '#'
    · subst comment
      rw [read_comment ends more]
      exact refused_of_endsLine ends _ true
    · rw [if_neg (by simpa using comment)]
      by_cases quote : c = '\''
      · subst quote
        rw [List.cons_append, read_quote, Reading.refused_after, refused_stretch ends more,
          ControlCharacter.among_of_neg (by decide)]
        rfl
      · rw [List.cons_append, read_unopened solid quote comment, ← List.cons_append,
          refused_stretch ends inner]

end Cursor

namespace Spec

/-- What is refused first in a text, from the beginning of a line on. -/
theorem refused_numbered (number : Nat) (text : List Char) :
    (⟨text, number, 0, true⟩ : Cursor).read.refused =
      ((TextLine.numbered number text).flatMap fun line =>
        among isRefused ⟨line.number, 1⟩ line.outside).head? := by
  induction size : text.length using Nat.strongRecOn generalizing text number with
  | ind n ih =>
    subst size
    by_cases newline : '\n' ∈ text
    · obtain ⟨chars, rest, rfl, unbroken⟩ := List.eq_append_cons_of_mem newline
      have shorter : rest.length < (chars ++ '\n' :: rest).length := by
        rw [List.length_append, List.length_cons]
        omega
      have ends : EndsLine ('\n' :: rest) := by simp [EndsLine]
      rw [Cursor.refused_textLine ⟨number, chars⟩ ends unbroken, Cursor.read_newline,
        Reading.refused_after, ih _ shorter _ _ rfl, TextLine.numbered_append unbroken,
        List.flatMap_cons, List.head?_append]
    · have ends : EndsLine [] := by simp [EndsLine]
      have line := Cursor.refused_textLine ⟨number, text⟩ ends newline
      rw [List.append_nil, Cursor.read_end, Option.or_none] at line
      rw [line, TextLine.numbered_of_unbroken newline, List.flatMap_singleton]

variable {source : String} {found : ControlCharacter}

theorem ofText_eq_error_iff_refused :
    Token.ofText source = .error found ↔ (Cursor.ofText source).read.refused = some found := by
  rw [Token.ofText]
  cases (Cursor.ofText source).read.refused <;> simp

/-- Reading a text stops at the first character that it refuses, and only there. -/
theorem ofText_eq_error_iff :
    Token.ofText source = .error found ↔ (outside isRefused source).head? = some found := by
  have refused : (Cursor.ofText source).read.refused = (outside isRefused source).head? :=
    refused_numbered 1 source.toList
  rw [ofText_eq_error_iff_refused, refused]

/-- A refused character is all that is reported about a text. -/
theorem parse_of_refused (read : Token.ofText source = .error found) (path : String) :
    parse path source = .error (refusalError path found) := by
  rw [ofText_eq_error_iff_refused] at read
  rw [parse, Reader.document]
  simp only [Reader.ofText, read]

theorem exists_ofText_eq_ok_iff :
    (∃ tokens, Token.ofText source = .ok tokens) ↔ outside isRefused source = [] := by
  rw [← List.head?_eq_none_iff, ← Option.not_isSome_iff_eq_none, Option.isSome_iff_exists]
  simp only [← ofText_eq_error_iff]
  cases Token.ofText source <;> simp

/-- A text in which a forbidden character stands outside comments is not read, and what is reported
is the first such character. -/
structure RefusesForbidden (source : String) : Prop where
  accepts : (∃ tokens, Token.ofText source = .ok tokens) ↔ outside isForbidden source = []
  reports : ∀ found, Token.ofText source = .error found →
    (outside isForbidden source).head? = some found

/-- Where reading goes by refused characters, all forbidden ones are refused exactly if the first
of them is not white space as well. -/
theorem refusesForbidden_iff :
    RefusesForbidden source ↔
      ∀ first ∈ (outside isForbidden source).head?, Text.isBlank first.char = false := by
  have refused : outside isRefused source =
      (outside isForbidden source).filter fun found => !Text.isBlank found.char :=
    (filter_outside isForbidden (fun c => !Text.isBlank c) source).symm
  constructor
  · rintro ⟨accepts, reports⟩ first head
    cases blank : Text.isBlank first.char with
    | false => rfl
    | true =>
      cases read : Token.ofText source with
      | ok tokens =>
        rw [accepts.mp ⟨tokens, read⟩] at head
        cases head
      | error found =>
        have same := Option.some.inj ((reports found read).symm.trans head)
        have kept := List.mem_of_mem_head? (ofText_eq_error_iff.mp read)
        rw [refused, List.mem_filter, same, blank] at kept
        exact absurd kept.2 (by decide)
  · intro solid
    cases listed : outside isForbidden source with
    | nil =>
      rw [listed, List.filter_nil] at refused
      refine ⟨?_, fun found read => ?_⟩
      · rw [exists_ofText_eq_ok_iff, refused, listed]
      · rw [ofText_eq_error_iff, refused] at read
        cases read
    | cons first rest =>
      have visible := solid first (by rw [listed]; rfl)
      rw [listed, List.filter_cons_of_pos (by simp [visible])] at refused
      refine ⟨?_, fun found read => ?_⟩
      · rw [exists_ofText_eq_ok_iff, refused, listed]
        simp
      · rw [ofText_eq_error_iff, refused] at read
        rw [listed]
        exact read

/-- Reading a text stops at the first forbidden character outside comments that is not white space,
with one report at that place, and gives the tokens where there is none. So forbidden characters
are refused as they should be unless the first of them is one of the three that are white space. -/
theorem refusal_iff (source : String) :
    (∀ found, Token.ofText source = .error found ↔
      (outside isRefused source).head? = some found) ∧
    ((∃ tokens, Token.ofText source = .ok tokens) ↔ outside isRefused source = []) ∧
    (∀ path found, Token.ofText source = .error found →
      ∃ report, parse path source = .error (.diagnostics .lexer [report]) ∧
        report.code = "lexer.control-char" ∧
        report.span = some (.point path found.position)) ∧
    (RefusesForbidden source ↔ ∀ first ∈ (outside isForbidden source).head?,
      first.char ∉ ['\x0b', '\x0c', '\u0085']) := by
  refine ⟨fun found => ofText_eq_error_iff, exists_ofText_eq_ok_iff, fun path found read => ?_, ?_⟩
  · exact ⟨refusal path found, parse_of_refused read path, rfl, rfl⟩
  · rw [refusesForbidden_iff]
    refine forall₂_congr fun first head => ?_
    have forbidden := of_mem_outside (List.mem_of_mem_head? head)
    rw [← isForbidden_and_isBlank_iff, not_and, Bool.not_eq_true]
    exact ⟨fun visible _ => visible, fun visible => visible forbidden⟩

/-- A vertical tab behind a word is a control character, and the text is read all the same. -/
theorem not_refusesForbidden_verticalTab :
    outside isForbidden "NOP\x0b" = [⟨'\x0b', ⟨1, 4⟩⟩] ∧
      (∃ tokens, Token.ofText "NOP\x0b" = .ok tokens) ∧ ¬ RefusesForbidden "NOP\x0b" := by
  have listed : outside isForbidden "NOP\x0b" = [⟨'\x0b', ⟨1, 4⟩⟩] := by decide +kernel
  have kept : outside isRefused "NOP\x0b" = [] := by decide +kernel
  have accepted := exists_ofText_eq_ok_iff.mpr kept
  refine ⟨listed, accepted, fun law => ?_⟩
  rw [law.accepts.mp accepted] at listed
  cases listed

end Spec

end DspIsa
