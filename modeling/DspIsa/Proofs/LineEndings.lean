import DspIsa.Proofs.ControlCharacters
import DspIsa.Proofs.LineGrammar
import Mathlib.Data.List.TakeWhile

/-! Line endings. A carriage return in front of a newline is a blank at the end of its line, and
blanks there make no difference to what is read: not behind a word, not in a comment, not in a blank
line and not behind a refused character. -/
namespace DspIsa

section Blanks

variable {blanks chars : List Char} {place : Position}

theorem Token.ofStretch_blanks (blank : ∀ c ∈ blanks, Text.isBlank c = true) (place : Position) :
    ofStretch place blanks = [] := by
  induction blanks generalizing place with
  | nil => exact ofStretch_nil
  | cons c blanks ih =>
    obtain ⟨first, more⟩ := List.forall_mem_cons.mp blank
    rw [ofStretch_blank first, ih more]

/-- Blanks behind a stretch spell nothing. -/
theorem Token.ofStretch_append_blanks (blank : ∀ c ∈ blanks, Text.isBlank c = true)
    (place : Position) (chars : List Char) :
    ofStretch place (chars ++ blanks) = ofStretch place chars := by
  have stops : ∀ c ∈ blanks.head?, isWordChar c = false := by
    intro c head
    simp [isWordChar, blank c (List.mem_of_mem_head? head)]
  induction place, chars using ofStretch.induct with
  | case1 place => rw [List.nil_append, ofStretch_blanks blank, ofStretch_nil]
  | case2 place c rest first ih =>
    rw [List.cons_append, ofStretch_blank first, ofStretch_blank first, ih]
  | case3 place rest _ ih => rw [List.cons_append, ofStretch_star, ofStretch_star, ih]
  | case4 place c rest shown other ih =>
    have solid : Text.isBlank c = false := Bool.not_eq_true _ ▸ shown
    rw [List.cons_append, ofStretch_word solid other, ofStretch_word solid other,
      takeWhile_append_of_stops stops, dropWhile_append_of_stops stops, ih]

/-- Nothing is refused in blanks. -/
theorem ControlCharacter.among_append_blanks (blank : ∀ c ∈ blanks, Text.isBlank c = true)
    (place : Position) (chars : List Char) :
    among isRefused place (chars ++ blanks) = among isRefused place chars := by
  induction chars generalizing place with
  | nil =>
    rw [List.nil_append, among_nil]
    exact among_eq_nil fun c member => isRefused_eq_false_of_isBlank (blank c member)
  | cons c rest ih =>
    cases refused : isRefused c with
    | true => rw [List.cons_append, among_of_pos refused, among_of_pos refused, ih]
    | false => rw [List.cons_append, among_of_neg refused, among_of_neg refused, ih]

end Blanks

namespace Spec

namespace TextLine

/-- The line with some more characters at its end. -/
def extended (line : TextLine) (more : List Char) : TextLine := ⟨line.number, line.chars ++ more⟩

variable {line : TextLine} {blanks : List Char}

theorem visible_extended_of_blank (blank : ∀ c ∈ blanks, Text.isBlank c = true)
    (empty : line.visible = []) : (line.extended blanks).visible = [] := by
  have all : ∀ c ∈ line.chars, Text.isBlank c = true := List.dropWhile_eq_nil_iff.mp empty
  exact List.dropWhile_eq_nil_iff.mpr (List.forall_mem_append.mpr ⟨all, blank⟩)

/-- Where the line shows anything, it shows the same behind the same blanks, and then the rest. -/
theorem visible_extended (blanks : List Char) {c : Char} {rest : List Char}
    (shown : line.visible = c :: rest) :
    (line.extended blanks).visible = c :: (rest ++ blanks) ∧
      (line.extended blanks).first = line.first := by
  have solid := not_isBlank_of_visible shown
  have parts : line.chars = line.chars.takeWhile Text.isBlank ++ c :: rest := by
    rw [← shown, visible, List.takeWhile_append_dropWhile]
  have passed : ∀ d ∈ line.chars.takeWhile Text.isBlank, Text.isBlank d = true := fun d member =>
    List.all_eq_true.mp List.all_takeWhile d member
  have whole : line.chars ++ blanks =
      line.chars.takeWhile Text.isBlank ++ c :: (rest ++ blanks) := by
    conv => lhs; rw [parts]
    rw [List.append_assoc, List.cons_append]
  constructor
  · rw [visible, extended, whole, List.dropWhile_append_of_pos passed,
      List.dropWhile_cons_of_neg (by simp [solid])]
  · have before : (line.chars ++ blanks).takeWhile Text.isBlank =
        line.chars.takeWhile Text.isBlank := by
      rw [whole, List.takeWhile_append_of_pos passed, List.takeWhile_cons_of_neg (by simp [solid]),
        List.append_nil]
    rw [first, first, extended, before]

theorem tokens_extended (blank : ∀ c ∈ blanks, Text.isBlank c = true) (line : TextLine) :
    (line.extended blanks).tokens = line.tokens := by
  cases shown : line.visible with
  | nil =>
    have empty := visible_extended_of_blank blank shown
    rw [tokens_of_ignored (by rw [isIgnored, empty]), tokens_of_ignored (by rw [isIgnored, shown])]
  | cons c rest =>
    obtain ⟨visible', first'⟩ := visible_extended blanks shown
    have ignored : (line.extended blanks).isIgnored = line.isIgnored := by
      rw [isIgnored, isIgnored, visible', shown]
    have quoted : (line.extended blanks).isQuoted = line.isQuoted := by
      rw [isQuoted, isQuoted, visible', shown]
      rfl
    have body' : (line.extended blanks).body = line.body ++ blanks := by
      rw [body, body, quoted, visible', shown]
      split
      · rfl
      · rfl
    rw [tokens, tokens, ignored, quoted, first', body', Token.ofStretch_append_blanks blank,
      Token.ofStretch_append_blanks blank]

theorem among_extended (blank : ∀ c ∈ blanks, Text.isBlank c = true) (line : TextLine) :
    ControlCharacter.among isRefused ⟨(line.extended blanks).number, 1⟩
        (line.extended blanks).outside =
      ControlCharacter.among isRefused ⟨line.number, 1⟩ line.outside := by
  rw [among_outside, among_outside, isComment, isComment]
  cases shown : line.visible with
  | nil =>
    rw [visible_extended_of_blank blank shown]
    rfl
  | cons c rest =>
    obtain ⟨visible', first'⟩ := visible_extended blanks shown
    rw [visible', first', ← List.cons_append, ControlCharacter.among_append_blanks blank]
    rfl

end TextLine

/-- The characters with a carriage return in front of every newline. -/
def returned (chars : List Char) : List Char :=
  chars.flatMap fun c => if c = '\n' then ['\r', '\n'] else [c]

/-- The text with a carriage return in front of every newline. -/
def withReturns (source : String) : String := String.ofList (returned source.toList)

theorem returned_unbroken {chars : List Char} (unbroken : '\n' ∉ chars) :
    returned chars = chars := by
  induction chars with
  | nil => rfl
  | cons c rest ih =>
    obtain ⟨ordinary, inner⟩ := List.ne_and_not_mem_of_not_mem_cons unbroken
    rw [returned, List.flatMap_cons, if_neg (Ne.symm ordinary), ← returned, ih inner]
    rfl

/-- What carriage returns at the ends of lines do not change is the same for the lines of both
texts. -/
theorem map_numbered_returned {α : Type} (view : TextLine → α)
    (same : ∀ line : TextLine, view (line.extended ['\r']) = view line) (number : Nat)
    (text : List Char) :
    (TextLine.numbered number (returned text)).map view =
      (TextLine.numbered number text).map view := by
  induction size : text.length using Nat.strongRecOn generalizing number text with
  | ind n ih =>
    subst size
    by_cases newline : '\n' ∈ text
    · obtain ⟨chars, rest, rfl, unbroken⟩ := List.eq_append_cons_of_mem newline
      have shorter : rest.length < (chars ++ '\n' :: rest).length := by
        rw [List.length_append, List.length_cons]
        omega
      have parts : returned (chars ++ '\n' :: rest) = chars ++ ['\r'] ++ '\n' :: returned rest := by
        rw [returned, List.flatMap_append, List.flatMap_cons, ← returned, ← returned,
          returned_unbroken unbroken, List.append_assoc]
        rfl
      have extended : '\n' ∉ chars ++ ['\r'] := by simpa using unbroken
      rw [parts, TextLine.numbered_append extended, TextLine.numbered_append unbroken,
        List.map_cons, List.map_cons, ih _ shorter _ _ rfl]
      exact congrArg (· :: _) (same ⟨number, chars⟩)
    · rw [returned_unbroken newline]

theorem isBlank_return : ∀ c ∈ ['\r'], Text.isBlank c = true :=
  List.forall_mem_singleton.mpr (by decide)

theorem map_tokens_withReturns (source : String) :
    (TextLine.ofText (withReturns source)).map TextLine.tokens =
      (TextLine.ofText source).map TextLine.tokens := by
  rw [TextLine.ofText, withReturns, String.toList_ofList]
  exact map_numbered_returned _ (TextLine.tokens_extended isBlank_return) 1 source.toList

theorem outside_withReturns (source : String) :
    outside isRefused (withReturns source) = outside isRefused source := by
  rw [outside, outside, TextLine.ofText, withReturns, String.toList_ofList, List.flatMap_def,
    List.flatMap_def,
    map_numbered_returned _ (TextLine.among_extended isBlank_return) 1 source.toList]
  rfl

/-- Carriage returns in front of the newlines of a text change nothing but its digest: reading fails
with the same error, of the same reports in the same places, or gives the same records. -/
theorem parse_withReturns (path source : String) :
    parse path (withReturns source) = (parse path source).map fun doc =>
      { doc with digest := Digest.sha256 (withReturns source) } := by
  have refused (found : ControlCharacter) :
      Token.ofText (withReturns source) = .error found ↔ Token.ofText source = .error found := by
    rw [ofText_eq_error_iff, ofText_eq_error_iff, outside_withReturns]
  cases lexed : Token.ofText source with
  | error found =>
    rw [parse_of_refused lexed, parse_of_refused ((refused found).mpr lexed)]
    rfl
  | ok tokens =>
    cases also : Token.ofText (withReturns source) with
    | error found => cases ((refused found).mp also).symm.trans lexed
    | ok others =>
      have rows := congrArg (List.filterMap (readLine path)) (map_tokens_withReturns source)
      rw [parse_of_lexed lexed rfl, parse_of_lexed also rows]
      split
      · rfl
      · rfl

end Spec

end DspIsa
