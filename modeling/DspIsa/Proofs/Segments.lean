import DspIsa.Proofs.ControlCharacters
import DspIsa.Proofs.LineGrammar
import Mathlib.Data.List.TakeWhile

/-! Reading across refused characters. They cut the lines of a text into segments, and each segment
is read to the tokens that its own characters spell; behind a refused character no comment and no
quote mark opens. -/
namespace DspIsa

namespace Spec

/-- A part of a line: up to a refused character or to the end of the line. -/
structure Segment where
  place : Position
  chars : List Char
  /-- The line begins with the segment. -/
  opens : Bool
  /-- The refused character right behind the segment. -/
  cut : Option ControlCharacter
  deriving DecidableEq, Repr

namespace Segment

/-- Cuts a part of a line at its refused characters. -/
def divide (place : Position) (opens : Bool) (chars : List Char) : List Segment :=
  match behind : chars.dropWhile fun c => !isRefused c with
  | [] => [⟨place, chars, opens, none⟩]
  | c :: rest =>
    let kept := chars.takeWhile fun c => !isRefused c
    ⟨place, kept, opens, some ⟨c, place.right kept.length⟩⟩ ::
      divide (place.right (kept.length + 1)) false rest
termination_by chars.length
decreasing_by
  have shorter : (chars.dropWhile fun c => !isRefused c).length ≤ chars.length :=
    (List.dropWhile_sublist _).length_le
  rw [behind, List.length_cons] at shorter
  exact shorter

/-- The tokens that a segment spells. Only where its line begins may a comment or a quote mark
open it. -/
def tokens (segment : Segment) : List Token :=
  if segment.opens then TextLine.tokens ⟨segment.place.line, segment.chars⟩
  else Token.ofStretch segment.place segment.chars

def isComment (segment : Segment) : Bool :=
  segment.opens && TextLine.isComment ⟨segment.place.line, segment.chars⟩

/-- The segment lies in one line, and nothing in it is refused. -/
structure Sound (segment : Segment) : Prop where
  start : segment.opens = true → segment.place.column = 1
  unbroken : '\n' ∉ segment.chars
  clean : segment.isComment = false → Clean segment.chars

end Segment

/-- The segments of a line; nothing is refused in a comment. -/
def TextLine.segments (line : TextLine) : List Segment :=
  if line.isComment then [⟨⟨line.number, 1⟩, line.chars, true, none⟩]
  else Segment.divide ⟨line.number, 1⟩ true line.chars

end Spec

open Spec (Segment TextLine)

/-- The cursor stands at the beginning of the first segment, and the segments are all that is left
of the text: a newline or a refused character is behind each of them but the last. -/
inductive Cursor.Faces : Cursor → List Segment → Prop where
  | last {line column : Nat} {opens : Bool} {chars : List Char}
      (sound : Segment.Sound ⟨⟨line, column + 1⟩, chars, opens, none⟩) :
      Faces ⟨chars, line, column, opens⟩ [⟨⟨line, column + 1⟩, chars, opens, none⟩]
  | newline {line column : Nat} {opens : Bool} {chars text : List Char} {segments : List Segment}
      (sound : Segment.Sound ⟨⟨line, column + 1⟩, chars, opens, none⟩)
      (later : Faces ⟨text, line + 1, 0, true⟩ segments) :
      Faces ⟨chars ++ '\n' :: text, line, column, opens⟩
        (⟨⟨line, column + 1⟩, chars, opens, none⟩ :: segments)
  | refused {line column : Nat} {opens : Bool} {chars text : List Char} {segments : List Segment}
      {c : Char} {cut : Option ControlCharacter}
      (sound : Segment.Sound ⟨⟨line, column + 1⟩, chars, opens, cut⟩)
      (plain : Segment.isComment ⟨⟨line, column + 1⟩, chars, opens, cut⟩ = false)
      (refused : isRefused c = true) (place : cut = some ⟨c, line, column + 1 + chars.length⟩)
      (later : Faces ⟨text, line, column + chars.length + 1, false⟩ segments) :
      Faces ⟨chars ++ c :: text, line, column, opens⟩
        (⟨⟨line, column + 1⟩, chars, opens, cut⟩ :: segments)

section Texts

variable {chars rest tail : List Char} {c : Char} {place : Position} {opens : Bool}

namespace Spec.Segment

theorem divide_clean (clean : Clean chars) :
    divide place opens chars = [⟨place, chars, opens, none⟩] := by
  have none : chars.dropWhile (fun c => !isRefused c) = [] :=
    List.dropWhile_eq_nil_iff.mpr fun c member => by simp [clean_iff.mp clean c member]
  rw [divide]
  split
  · rfl
  · rename_i behind
    cases none.symm.trans behind

theorem divide_refused (clean : Clean chars) (refused : isRefused c = true) (rest : List Char) :
    divide place opens (chars ++ c :: rest) =
      ⟨place, chars, opens, some ⟨c, place.right chars.length⟩⟩ ::
        divide (place.right (chars.length + 1)) false rest := by
  have passed : ∀ d ∈ chars, (!isRefused d) = true := fun d member => by
    simp [clean_iff.mp clean d member]
  have stops : (c :: rest).dropWhile (fun c => !isRefused c) = c :: rest := by simp [refused]
  have none : (c :: rest).takeWhile (fun c => !isRefused c) = [] := by simp [refused]
  have dropped : (chars ++ c :: rest).dropWhile (fun c => !isRefused c) = c :: rest := by
    rw [List.dropWhile_append_of_pos passed, stops]
  have taken : (chars ++ c :: rest).takeWhile (fun c => !isRefused c) = chars := by
    rw [List.takeWhile_append_of_pos passed, none, List.append_nil]
  rw [divide]
  split
  · rename_i behind
    cases dropped.symm.trans behind
  · rename_i d more behind
    cases dropped.symm.trans behind
    rw [taken]

end Spec.Segment

/-- A segment is read to its tokens, up to the newline or the refused character behind it. -/
theorem Cursor.read_segment {line column : Nat} {cut : Option ControlCharacter}
    (sound : Segment.Sound ⟨⟨line, column + 1⟩, chars, opens, cut⟩)
    (ends : Segment.isComment ⟨⟨line, column + 1⟩, chars, opens, cut⟩ = true → EndsLine tail)
    (stops : ∀ c ∈ tail.head?, isWordChar c = false) :
    ∃ start, (⟨chars ++ tail, line, column, opens⟩ : Cursor).read =
      (⟨tail, line, column + chars.length, start⟩ : Cursor).read.after
        (Segment.tokens ⟨⟨line, column + 1⟩, chars, opens, cut⟩) := by
  obtain ⟨begins, unbroken, clean⟩ := sound
  cases opens with
  | false => exact ⟨false, read_clean stops unbroken (clean rfl)⟩
  | true =>
    obtain rfl : column = 0 := Nat.succ.inj (begins rfl)
    cases ignored : TextLine.isIgnored ⟨line, chars⟩ with
    | true =>
      have passed := TextLine.read_ignored ignored unbroken ends
      refine ⟨true, ?_⟩
      rw [Segment.tokens, if_pos rfl, TextLine.tokens_of_ignored ignored, Nat.zero_add]
      exact passed
    | false =>
      have plain : TextLine.isComment ⟨line, chars⟩ = false := by
        obtain ⟨c, rest, shown, -⟩ := TextLine.exists_visible ignored
        simp only [TextLine.isIgnored, shown] at ignored
        simpa [TextLine.isComment, shown] using ignored
      have readable : Clean (TextLine.body ⟨line, chars⟩) := fun c member =>
        clean plain c (TextLine.mem_chars_of_mem_body member)
      refine ⟨false, ?_⟩
      rw [Segment.tokens, if_pos rfl, TextLine.tokens_of_kept ignored, Nat.zero_add,
        TextLine.length_chars_eq ignored]
      refine (TextLine.read_kept ignored unbroken).trans ?_
      rw [read_clean stops (TextLine.newline_notMem_body unbroken) readable, Reading.after_after]

end Texts

namespace Spec

variable {number line column : Nat} {opens : Bool} {chars tail before rest : List Char}
  {segments : List Segment}

theorem Segment.isInline_tokens (segment : Segment) : ∀ token ∈ segment.tokens, token.IsInline := by
  unfold tokens
  split
  · exact TextLine.isInline_tokens _
  · exact Token.isInline_ofStretch _ _

/-- A comment is opened by the characters in front of any others. -/
theorem TextLine.isComment_append (comment : TextLine.isComment ⟨number, before⟩ = true) :
    TextLine.isComment ⟨number, before ++ rest⟩ = true := by
  unfold isComment visible at *
  rw [List.dropWhile_append]
  split
  · rename_i empty
    rw [List.isEmpty_iff.mp empty] at comment
    cases comment
  · rename_i opened
    cases shown : before.dropWhile Text.isBlank with
    | nil => simp [shown] at opened
    | cons c more =>
      rw [shown] at comment
      exact comment

/-- What is behind a line: nothing, or a newline and the segments of the lines behind it. -/
def Behind (line : Nat) (tail : List Char) (segments : List Segment) : Prop :=
  tail = [] ∧ segments = [] ∨
    ∃ text, tail = '\n' :: text ∧ Cursor.Faces ⟨text, line + 1, 0, true⟩ segments

theorem Behind.faces (behind : Behind line tail segments)
    (sound : Segment.Sound ⟨⟨line, column + 1⟩, chars, opens, none⟩) :
    Cursor.Faces ⟨chars ++ tail, line, column, opens⟩
      (⟨⟨line, column + 1⟩, chars, opens, none⟩ :: segments) := by
  rcases behind with ⟨rfl, rfl⟩ | ⟨text, rfl, later⟩
  · rw [List.append_nil]
    exact .last sound
  · exact .newline sound later

/-- Cutting the rest of a line gives the segments that are left of it. -/
theorem Behind.faces_divide (behind : Behind line tail segments)
    (begins : opens = true → column = 0)
    (plain : opens = true → TextLine.isComment ⟨line, chars⟩ = false) (unbroken : '\n' ∉ chars) :
    Cursor.Faces ⟨chars ++ tail, line, column, opens⟩
      (Segment.divide ⟨line, column + 1⟩ opens chars ++ segments) := by
  induction size : chars.length using Nat.strongRecOn generalizing chars column opens with
  | ind n ih =>
    subst size
    have first (same : opens = true) : column + 1 = 1 := congrArg (· + 1) (begins same)
    rcases clean_or_split chars with clean | ⟨before, c, rest, rfl, clean, refused⟩
    · rw [Segment.divide_clean clean]
      exact behind.faces ⟨first, unbroken, fun _ => clean⟩
    · rw [List.mem_append, not_or] at unbroken
      obtain ⟨front, back⟩ := unbroken
      have inner : '\n' ∉ rest := (List.ne_and_not_mem_of_not_mem_cons back).2
      have shorter : rest.length < (before ++ c :: rest).length := by
        rw [List.length_append, List.length_cons]
        omega
      have free (cut : Option ControlCharacter) :
          Segment.isComment ⟨⟨line, column + 1⟩, before, opens, cut⟩ = false := by
        unfold Segment.isComment
        cases opens with
        | false => rfl
        | true =>
          have whole := plain rfl
          cases comment : TextLine.isComment ⟨line, before⟩ with
          | false => rfl
          | true =>
            rw [TextLine.isComment_append comment] at whole
            cases whole
      have later : Cursor.Faces ⟨rest ++ tail, line, column + before.length + 1, false⟩
          (Segment.divide ⟨line, column + before.length + 1 + 1⟩ false rest ++ segments) :=
        ih _ shorter nofun nofun inner rfl
      have place : (⟨line, column + before.length + 1 + 1⟩ : Position) =
          (⟨line, column + 1⟩ : Position).right (before.length + 1) := by
        simp only [Position.right, Position.mk.injEq, true_and]
        omega
      rw [place] at later
      rw [Segment.divide_refused clean refused, List.append_assoc]
      exact .refused ⟨first, front, fun _ => clean⟩ (free _) refused rfl later

/-- A cursor at the beginning of a line faces the segments of the line and of those behind it. -/
theorem faces_numbered (number : Nat) (text : List Char) :
    Cursor.Faces ⟨text, number, 0, true⟩
      ((TextLine.numbered number text).flatMap TextLine.segments) := by
  induction size : text.length using Nat.strongRecOn generalizing text number with
  | ind n ih =>
    subst size
    have line {chars tail : List Char} {segments : List Segment} (unbroken : '\n' ∉ chars)
        (behind : Behind number tail segments) :
        Cursor.Faces ⟨chars ++ tail, number, 0, true⟩
          (TextLine.segments ⟨number, chars⟩ ++ segments) := by
      unfold TextLine.segments
      cases comment : TextLine.isComment ⟨number, chars⟩ with
      | true =>
        refine behind.faces ⟨fun _ => rfl, unbroken, fun plain => ?_⟩
        rw [Segment.isComment] at plain
        exact absurd comment (Bool.eq_false_iff.mp plain)
      | false => exact behind.faces_divide (fun _ => rfl) (fun _ => comment) unbroken
    by_cases newline : '\n' ∈ text
    · obtain ⟨chars, rest, rfl, unbroken⟩ := List.eq_append_cons_of_mem newline
      have shorter : rest.length < (chars ++ '\n' :: rest).length := by
        rw [List.length_append, List.length_cons]
        omega
      rw [TextLine.numbered_append unbroken, List.flatMap_cons]
      exact line unbroken (.inr ⟨rest, rfl, ih _ shorter _ _ rfl⟩)
    · have faces := line newline (.inl ⟨rfl, rfl⟩)
      rw [List.append_nil, List.append_nil] at faces
      rw [TextLine.numbered_of_unbroken newline, List.flatMap_singleton]
      exact faces

/-- The segments of a text, line by line. -/
def Segment.ofText (source : String) : List Segment :=
  (TextLine.ofText source).flatMap TextLine.segments

theorem faces_ofText (source : String) : (Cursor.ofText source).Faces (Segment.ofText source) :=
  faces_numbered 1 source.toList

theorem filterMap_cut_divide (place : Position) (opens : Bool) (chars : List Char) :
    (Segment.divide place opens chars).filterMap Segment.cut =
      ControlCharacter.among isRefused place chars := by
  induction size : chars.length using Nat.strongRecOn generalizing chars place opens with
  | ind n ih =>
    subst size
    rcases clean_or_split chars with clean | ⟨before, c, rest, rfl, clean, refused⟩
    · rw [Segment.divide_clean clean, ControlCharacter.among_eq_nil (clean_iff.mp clean)]
      rfl
    · have shorter : rest.length < (before ++ c :: rest).length := by
        rw [List.length_append, List.length_cons]
        omega
      rw [Segment.divide_refused clean refused, ControlCharacter.among_append (clean_iff.mp clean),
        ControlCharacter.among_of_pos refused, Position.right_right, ← ih _ shorter _ false _ rfl]
      rfl

/-- The segments are cut at the refused characters outside comments, in their order. -/
theorem filterMap_cut_ofText (source : String) :
    (Segment.ofText source).filterMap Segment.cut = outside isRefused source := by
  rw [Segment.ofText, outside, List.filterMap_flatMap]
  refine List.flatMap_congr fun line _ => ?_
  cases comment : line.isComment with
  | true =>
    rw [TextLine.segments, if_pos comment, TextLine.among_outside, if_pos comment]
    rfl
  | false =>
    have plain : ¬ line.isComment = true := by simp [comment]
    rw [TextLine.segments, if_neg plain, TextLine.outside, if_neg plain, filterMap_cut_divide]

end Spec

end DspIsa
