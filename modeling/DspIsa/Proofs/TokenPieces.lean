import DspIsa.Proofs.LineTokens
import Mathlib.Data.List.TakeWhile

/-! Which piece of a text each result of a cursor is about. The pieces come in the order of the
text, and what lies between them is white space or a comment. A place is described by the
characters in front of it, without any counter. -/
namespace DspIsa

/-- The characters behind the last newline. -/
def lastLine (chars : List Char) : List Char := (chars.reverse.takeWhile (· != '\n')).reverse

/-- The last line from its first character that is not blank. -/
def lineText (chars : List Char) : List Char := (lastLine chars).dropWhile Text.isBlank

/-- The place behind some characters of a text: one more than the newlines among them, and one more
than the characters behind the last of these. -/
def Position.behind (chars : List Char) : Position :=
  ⟨1 + chars.count '\n', 1 + (lastLine chars).length⟩

/-- The last of some characters belongs to a comment: its line opens with a number sign. -/
def InComment (chars : List Char) : Prop := (lineText chars).head? = some '#'

instance (chars : List Char) : Decidable (InComment chars) := inferInstanceAs (Decidable (_ = _))

/-- The character at a place is white space within its line or belongs to a comment. -/
def Ignored (source : List Char) (place : Nat) : Prop :=
  (∃ c, source[place]? = some c ∧ isInlineBlank c = true) ∨ InComment (source.take (place + 1))

section Lines

variable {front chars : List Char} {c : Char}

theorem lastLine_append (unbroken : '\n' ∉ chars) :
    lastLine (front ++ chars) = lastLine front ++ chars := by
  have passed : ∀ c ∈ chars.reverse, (c != '\n') = true := fun c member =>
    bne_iff_ne.mpr fun same => unbroken (same ▸ List.mem_reverse.mp member)
  rw [lastLine, List.reverse_append, List.takeWhile_append_of_pos passed, List.reverse_append,
    List.reverse_reverse, lastLine]

@[simp] theorem lastLine_newline : lastLine (front ++ ['\n']) = [] := by simp [lastLine]

@[simp] theorem lineText_newline : lineText (front ++ ['\n']) = [] := by simp [lineText]

/-- Blanks do not change what a line opens with. -/
theorem head?_lineText_blank (unbroken : '\n' ∉ chars)
    (blank : ∀ c ∈ chars, Text.isBlank c = true) :
    (lineText (front ++ chars)).head? = (lineText front).head? := by
  have passed : chars.dropWhile Text.isBlank = [] := List.dropWhile_eq_nil_iff.mpr blank
  rw [lineText, lastLine_append unbroken, List.dropWhile_append, passed, lineText]
  split
  · rename_i empty
    rw [List.isEmpty_iff.mp empty]
  · rename_i opened
    rw [List.head?_append, Option.or_of_isSome (by simpa using opened)]

/-- A character that is not blank opens its line or leaves it as it was opened. -/
theorem head?_lineText_cons (unbroken : '\n' ∉ c :: chars) (shown : Text.isBlank c = false) :
    (lineText (front ++ c :: chars)).head? = (lineText front).head?.or (some c) := by
  rw [lineText, lastLine_append unbroken, List.dropWhile_append,
    List.dropWhile_cons_of_neg (by simp [shown]), lineText]
  split
  · rename_i empty
    rw [List.isEmpty_iff.mp empty]
    rfl
  · rw [List.head?_append]
    rfl

theorem Position.behind_append (unbroken : '\n' ∉ chars) :
    Position.behind (front ++ chars) = (Position.behind front).right chars.length := by
  simp [behind, right, List.count_append, List.count_eq_zero.mpr unbroken,
    lastLine_append unbroken, Nat.add_assoc]

theorem Position.behind_newline :
    Position.behind (front ++ ['\n']) = ⟨(Position.behind front).line + 1, 1⟩ := by
  simp [behind, Nat.add_assoc]

end Lines

theorem newline_notMem_of_solid {chars : List Char} (solid : ∀ c ∈ chars, Text.isBlank c = false) :
    '\n' ∉ chars := fun member => absurd (solid '\n' member) (by decide)

/-- What a result tells about the characters it is about, with those in front of them. -/
inductive Shows (source front : List Char) :
    List Char → Except ControlCharacter Token → Prop where
  | quote (opens : lineText front = []) :
      Shows source front ['\''] (.ok ⟨.quote, "'", .behind front⟩)
  | word {chars : List Char} (solid : chars ≠ [])
      (plain : ∀ c ∈ chars, Text.isBlank c = false ∧ c ≠ '*' ∧ isForbidden c = false)
      (unquoted : lineText front = [] → chars.head? ≠ some '\'') :
      Shows source front chars (.ok ⟨.word, String.ofList chars, .behind front⟩)
  | star : Shows source front ['*'] (.ok ⟨.star, "*", .behind front⟩)
  | newline : Shows source front ['\n'] (.ok ⟨.newline, "\n", .behind front⟩)
  | eof (ended : front = source) : Shows source front [] (.ok ⟨.eof, "", .behind front⟩)
  | refused {c : Char} (forbidden : isForbidden c = true) (shown : Text.isBlank c = false) :
      Shows source front [c] (.error ⟨c, .behind front⟩)

/-- A result with the characters it is about and all those in front of them. -/
structure Piece where
  front : List Char
  chars : List Char
  result : Except ControlCharacter Token

namespace Piece

def start (piece : Piece) : Nat := piece.front.length

def stop (piece : Piece) : Nat := piece.front.length + piece.chars.length

/-- The character at the place is one of the piece. -/
def Holds (piece : Piece) (place : Nat) : Prop := piece.start ≤ place ∧ place < piece.stop

/-- The piece is where it says in the text, and no comment reaches into it. -/
structure Fits (source : List Char) (piece : Piece) : Prop where
  present : piece.front ++ piece.chars <+: source
  shows : Shows source piece.front piece.chars piece.result
  outside : ∀ c ∈ piece.chars.head?, ¬ InComment (piece.front ++ [c])

end Piece

/-- The cursor stands behind some characters, and knows where that is. -/
structure Cursor.Tracks (front : List Char) (cursor : Cursor) : Prop where
  position : cursor.position = .behind front
  /-- A comment has been passed over as far as its line goes. -/
  start : ∀ c ∈ cursor.rest.head?, c ≠ '\n' →
    cursor.lineStart = (lineText front).head?.isNone ∧ ¬ InComment front

namespace Cursor

variable {front source : List Char} {cursor : Cursor} {p : Char → Bool}

theorem position_skipWhile :
    (cursor.skipWhile p).position = cursor.position.right (cursor.rest.takeWhile p).length := by
  simp only [position, skipWhile, Position.right, Nat.add_right_comm]

theorem newline_notMem_takeWhile (newline : p '\n' = false) (chars : List Char) :
    '\n' ∉ chars.takeWhile p := by
  intro member
  have passed := List.all_eq_true.mp List.all_takeWhile _ member
  rw [newline] at passed
  cases passed

theorem isWordChar_iff {c : Char} :
    isWordChar c = true ↔ Text.isBlank c = false ∧ c ≠ '*' ∧ isForbidden c = false := by
  simp [isWordChar, and_assoc]

theorem isBlank_of_isInlineBlank {c : Char} (blank : isInlineBlank c = true) :
    c ≠ '\n' ∧ Text.isBlank c = true := by
  simpa [isInlineBlank] using blank

/-- Blanks are passed over, and the cursor tracks the place behind them. -/
theorem Tracks.skipBlanks (tracks : Tracks front cursor) :
    Tracks (front ++ cursor.rest.takeWhile isInlineBlank) (cursor.skipWhile isInlineBlank) := by
  have unbroken := newline_notMem_takeWhile (p := isInlineBlank) (by decide) cursor.rest
  have blank : ∀ c ∈ cursor.rest.takeWhile isInlineBlank, Text.isBlank c = true := fun c member =>
    (isBlank_of_isInlineBlank (List.all_eq_true.mp List.all_takeWhile c member)).2
  have line : (lineText (front ++ cursor.rest.takeWhile isInlineBlank)).head? =
      (lineText front).head? := head?_lineText_blank unbroken blank
  refine ⟨?_, fun c head ordinary => ?_⟩
  · rw [position_skipWhile, tracks.position, Position.behind_append unbroken]
  · have before : cursor.lineStart = (lineText front).head?.isNone ∧ ¬ InComment front := by
      cases rest : cursor.rest with
      | nil =>
        simp [skipWhile, rest] at head
      | cons first more =>
        refine tracks.start first (by rw [rest]; rfl) ?_
        cases skipped : isInlineBlank first with
        | true => exact (isBlank_of_isInlineBlank skipped).1
        | false =>
          simp only [skipWhile, rest, List.dropWhile_cons_of_neg (Bool.not_eq_true _ ▸ skipped),
            List.head?_cons, Option.mem_some_iff] at head
          exact head ▸ ordinary
    rw [InComment, line]
    exact before

/-- The comment that opens a line is passed over up to a newline or the end of the text. -/
theorem Tracks.skipComment (tracks : Tracks front cursor) (opened : lineText front = [])
    (mark : cursor.rest.head? = some '#') :
    Tracks (front ++ cursor.rest.takeWhile (· != '\n')) (cursor.skipWhile (· != '\n')) ∧
      (∀ c ∈ (cursor.skipWhile (· != '\n')).rest.head?, c = '\n') ∧
      ∀ place, place < (cursor.rest.takeWhile (· != '\n')).length →
        InComment (front ++ (cursor.rest.takeWhile (· != '\n')).take (place + 1)) := by
  have unbroken := newline_notMem_takeWhile (p := (· != '\n')) (by decide) cursor.rest
  have ends : ∀ c ∈ (cursor.skipWhile (· != '\n')).rest.head?, c = '\n' := by
    intro c head
    have stops := List.head?_dropWhile_not (· != '\n') cursor.rest
    rw [skipWhile] at head
    simpa [Option.mem_def.mp head] using stops
  refine ⟨⟨?_, fun c head ordinary => absurd (ends c head) ordinary⟩, ends, fun place _ => ?_⟩
  · rw [position_skipWhile, tracks.position, Position.behind_append unbroken]
  · obtain ⟨more, rest⟩ := List.head?_eq_some_iff.mp mark
    rw [rest, List.takeWhile_cons_of_pos (by decide)] at unbroken ⊢
    have part : '\n' ∉ '#' :: (more.takeWhile (· != '\n')).take place := fun member =>
      unbroken (List.cons_subset_cons _ (List.take_subset _ _) member)
    rw [List.take_succ_cons, InComment, head?_lineText_cons part (by decide), opened]
    rfl

/-- The cursor has passed over a gap of white space and comments, and stands at the end of the text
or at a character that is neither. -/
structure Skips (front gap : List Char) (cursor behind : Cursor) : Prop where
  rest : cursor.rest = gap ++ behind.rest
  tracks : Tracks (front ++ gap) behind
  passed : ∀ place c, gap[place]? = some c →
    isInlineBlank c = true ∨ InComment (front ++ gap.take (place + 1))
  outside : ∀ c ∈ behind.rest.head?, isInlineBlank c = false ∧ ¬ InComment (front ++ gap ++ [c])

theorem Skips.parts {gap : List Char} {behind : Cursor} (skips : Skips front gap cursor behind)
    (whole : source = front ++ cursor.rest) : source = front ++ gap ++ behind.rest := by
  rw [whole, skips.rest, List.append_assoc]

theorem Skips.ignored {gap : List Char} {behind : Cursor} (skips : Skips front gap cursor behind)
    (whole : source = front ++ cursor.rest) {place : Nat} (lower : front.length ≤ place)
    (upper : place < (front ++ gap).length) : Ignored source place := by
  obtain ⟨offset, rfl⟩ := Nat.exists_eq_add_of_le lower
  rw [List.length_append] at upper
  have inside : offset < gap.length := by omega
  have parts := skips.parts whole
  have here : source[front.length + offset]? = gap[offset]? := by
    rw [parts, List.append_assoc, List.getElem?_append_right lower, Nat.add_sub_cancel_left,
      List.getElem?_append_left inside]
  have before : source.take (front.length + offset + 1) = front ++ gap.take (offset + 1) := by
    rw [parts, List.append_assoc, Nat.add_assoc, List.take_length_add_append,
      List.take_append_of_le_length inside]
  rw [Ignored, here, before]
  exact (skips.passed offset _ (List.getElem?_eq_getElem inside)).imp_left fun blank =>
    ⟨_, List.getElem?_eq_getElem inside, blank⟩

theorem isInlineBlank_of_getElem? {place : Nat} {c : Char}
    (found : (cursor.rest.takeWhile isInlineBlank)[place]? = some c) : isInlineBlank c = true :=
  List.all_eq_true.mp List.all_takeWhile c (List.mem_of_getElem? found)

/-- Blanks and the comment behind them. -/
theorem Tracks.skips_comment (tracks : Tracks front cursor)
    (start : cursor.lineStart = true)
    (mark : (cursor.skipWhile isInlineBlank).rest.head? = some '#') :
    Skips front (cursor.rest.takeWhile isInlineBlank ++
        (cursor.skipWhile isInlineBlank).rest.takeWhile (· != '\n')) cursor
      ((cursor.skipWhile isInlineBlank).skipWhile (· != '\n')) := by
  have skipped := tracks.skipBlanks
  have opened := (skipped.start '#' mark (by decide)).1
  have same : (cursor.skipWhile isInlineBlank).lineStart = true := start
  rw [same, eq_comm, Option.isNone_iff_eq_none, List.head?_eq_none_iff] at opened
  obtain ⟨behind, ends, comment⟩ := skipped.skipComment opened mark
  constructor
  · rw [List.append_assoc]
    simp only [skipWhile, List.takeWhile_append_dropWhile]
  · rw [← List.append_assoc]
    exact behind
  · intro place c found
    by_cases inside : place < (cursor.rest.takeWhile isInlineBlank).length
    · rw [List.getElem?_append_left inside] at found
      exact .inl (isInlineBlank_of_getElem? found)
    · have past := Nat.le_of_not_lt inside
      rw [List.getElem?_append_right past] at found
      have offset : place + 1 - (cursor.rest.takeWhile isInlineBlank).length =
          place - (cursor.rest.takeWhile isInlineBlank).length + 1 := by omega
      rw [List.take_append, List.take_of_length_le (Nat.le_succ_of_le past), offset,
        ← List.append_assoc]
      exact .inr (comment _ (List.getElem?_eq_some_iff.mp found).1)
  · intro c head
    rw [ends c head, InComment, lineText_newline]
    exact ⟨by decide, by decide⟩

/-- Blanks alone, where no comment is behind them. -/
theorem Tracks.skips_blanks (tracks : Tracks front cursor)
    (plain : cursor.lineStart = true → (cursor.skipWhile isInlineBlank).rest.head? ≠ some '#') :
    Skips front (cursor.rest.takeWhile isInlineBlank) cursor (cursor.skipWhile isInlineBlank) := by
  have skipped := tracks.skipBlanks
  refine ⟨List.takeWhile_append_dropWhile.symm, skipped,
    fun place c found => .inl (isInlineBlank_of_getElem? found), fun c head => ?_⟩
  have stops := List.head?_dropWhile_not isInlineBlank cursor.rest
  have blank : isInlineBlank c = false := by
    simp only [skipWhile] at head
    rwa [Option.mem_def.mp head] at stops
  refine ⟨blank, ?_⟩
  by_cases newline : c = '\n'
  · rw [newline, InComment, lineText_newline]
    decide
  · obtain ⟨start, outside⟩ := skipped.start c head newline
    have shown : Text.isBlank c = false := by simpa [isInlineBlank, newline] using blank
    rw [InComment, head?_lineText_cons (by simpa using Ne.symm newline) shown]
    cases line : (lineText (front ++ cursor.rest.takeWhile isInlineBlank)).head? with
    | none =>
      rw [line] at start
      rintro same
      obtain rfl : c = '#' := Option.some.inj same
      exact plain start (Option.mem_def.mp head)
    | some first =>
      rw [InComment, line] at outside
      exact outside

/-- What is passed over in front of a token is white space or a comment, and the token begins with a
character that is neither. -/
theorem Tracks.skipIgnored (tracks : Tracks front cursor) :
    ∃ gap, Skips front gap cursor cursor.skipIgnored := by
  unfold Cursor.skipIgnored
  dsimp only
  split
  · rename_i mark
    rw [Bool.and_eq_true, beq_iff_eq] at mark
    exact ⟨_, tracks.skips_comment mark.1 mark.2⟩
  · rename_i plain
    rw [Bool.and_eq_true, beq_iff_eq, not_and] at plain
    exact ⟨_, tracks.skips_blanks plain⟩

/-- Behind a character that is not blank, a line is open, and it is a comment only if it was one
with that character. -/
theorem Tracks.of_solid {chars : List Char} {c : Char} (unbroken : '\n' ∉ c :: chars)
    (shown : Text.isBlank c = false) (outside : ¬ InComment (front ++ [c])) {behind : Cursor}
    (position : behind.position = (Position.behind front).right (c :: chars).length)
    (start : behind.lineStart = false) : Tracks (front ++ c :: chars) behind := by
  refine ⟨by rw [position, Position.behind_append unbroken], fun _ _ _ => ?_⟩
  have single : '\n' ∉ [c] := by
    rw [List.mem_singleton]
    exact List.ne_of_not_mem_cons unbroken
  rw [InComment, head?_lineText_cons single shown] at outside
  rw [InComment, head?_lineText_cons unbroken shown, start]
  refine ⟨?_, outside⟩
  cases (lineText front).head? <;> rfl

/-- What is taken at a character that is neither blank nor in a comment. -/
theorem Tracks.take (tracks : Tracks front cursor) (source : List Char) {c : Char}
    {rest : List Char} (here : cursor.rest = c :: rest) (shown : isInlineBlank c = false)
    (outside : ¬ InComment (front ++ [c])) :
    ∃ chars, cursor.rest = c :: chars ++ (cursor.take c rest).2.rest ∧
      Shows source front (c :: chars) (cursor.take c rest).1 ∧
      Tracks (front ++ c :: chars) (cursor.take c rest).2 := by
  have right : (⟨cursor.line, cursor.column + 1 + 1⟩ : Position) =
      (Position.behind front).right 1 := by
    rw [← tracks.position]
    rfl
  rw [here]
  unfold Cursor.take
  dsimp only
  rw [tracks.position]
  split
  · rename_i newline
    obtain rfl := beq_iff_eq.mp newline
    refine ⟨[], rfl, .newline, ?_, fun _ _ _ => ?_⟩
    · rw [Position.behind_newline, ← tracks.position]
      rfl
    · rw [InComment, lineText_newline]
      exact ⟨rfl, nofun⟩
  rename_i newline
  have ordinary : c ≠ '\n' := by simpa using newline
  have solid : Text.isBlank c = false := by simpa [isInlineBlank, ordinary] using shown
  have single : '\n' ∉ [c] := by simpa using Ne.symm ordinary
  split
  · rename_i star
    obtain rfl := beq_iff_eq.mp star
    exact ⟨[], rfl, .star, .of_solid single solid outside right rfl⟩
  rename_i star
  split
  · rename_i quote
    rw [Bool.and_eq_true, beq_iff_eq] at quote
    obtain ⟨rfl, start⟩ := quote
    have opens := (tracks.start _ (by rw [here]; rfl) ordinary).1
    rw [start, eq_comm, Option.isNone_iff_eq_none, List.head?_eq_none_iff] at opens
    exact ⟨[], rfl, .quote opens, .of_solid single solid outside right rfl⟩
  rename_i unquoted
  split
  · rename_i forbidden
    exact ⟨[], rfl, .refused forbidden solid, .of_solid single solid outside right rfl⟩
  rename_i allowed
  rw [Bool.not_eq_true] at allowed
  have other : c ≠ '*' := by simpa using star
  have unbroken : '\n' ∉ c :: rest.takeWhile isWordChar := by
    rw [List.mem_cons, not_or]
    exact ⟨Ne.symm ordinary, newline_notMem_takeWhile isWordChar_newline rest⟩
  refine ⟨rest.takeWhile isWordChar, ?_, .word (List.cons_ne_nil _ _) ?_ ?_,
    .of_solid unbroken solid outside ?_ rfl⟩
  · rw [List.cons_append]
    simp only [skipWhile, List.takeWhile_append_dropWhile]
  · exact List.forall_mem_cons.mpr ⟨⟨solid, other, allowed⟩, fun d member =>
      isWordChar_iff.mp (List.all_eq_true.mp List.all_takeWhile d member)⟩
  · intro opens head
    obtain rfl : c = '\'' := Option.some.inj head
    have start := (tracks.start _ (by rw [here]; rfl) ordinary).1
    rw [opens] at start
    exact unquoted (by rw [start]; rfl)
  · rw [position_skipWhile, List.length_cons, Nat.add_comm (List.length _) 1,
      ← Position.right_right, ← right]
    rfl

/-- The next result is about a piece of the text, and all that is passed over is ignored. -/
theorem Tracks.next (tracks : Tracks front cursor) (whole : source = front ++ cursor.rest) :
    ∃ piece : Piece, piece.result = cursor.next.1 ∧ piece.Fits source ∧
      front.length ≤ piece.start ∧
      (∀ place, front.length ≤ place → place < piece.start → Ignored source place) ∧
      Tracks (piece.front ++ piece.chars) cursor.next.2 ∧
      source = piece.front ++ piece.chars ++ cursor.next.2.rest := by
  obtain ⟨gap, skips⟩ := tracks.skipIgnored
  have parts := skips.parts whole
  have behind := skips.tracks
  have start : front.length ≤ (front ++ gap).length := by simp
  unfold Cursor.next
  dsimp only
  split
  · rename_i ended
    rw [ended, List.append_nil] at parts
    rw [behind.position]
    refine ⟨⟨front ++ gap, [], _⟩, rfl, ⟨?_, .eof parts.symm, by simp⟩, start,
      fun _ => skips.ignored whole, ?_, ?_⟩
    · rw [List.append_nil]
      exact parts ▸ List.prefix_rfl
    · rw [List.append_nil]
      exact behind
    · rw [List.append_nil, ended, List.append_nil, parts]
  · rename_i c more here
    obtain ⟨shown, free⟩ := skips.outside c (by rw [here]; rfl)
    obtain ⟨chars, split, shows, after⟩ := behind.take source here shown free
    rw [split, ← List.append_assoc] at parts
    refine ⟨⟨front ++ gap, c :: chars, _⟩, rfl, ⟨?_, shows, ?_⟩, start,
      fun _ => skips.ignored whole, after, parts⟩
    · exact parts ▸ List.prefix_append _ _
    · rintro first same
      cases same
      exact free

/-- The results of a number of calls in a row, going on behind refused characters and at the end of
the text. -/
def calls : Cursor → Nat → List (Except ControlCharacter Token)
  | _, 0 => []
  | cursor, count + 1 => cursor.next.1 :: cursor.next.2.calls count

end Cursor

/-- Pieces in the order of a text, with nothing but ignored characters in front of each from some
place on. -/
structure Covers (source : List Char) (base : Nat) (pieces : List Piece) : Prop where
  fits : ∀ piece ∈ pieces, piece.Fits source
  above : ∀ piece ∈ pieces, base ≤ piece.start
  ascending : pieces.Pairwise fun first second => first.stop ≤ second.start
  passed : ∀ place, base ≤ place → (∃ piece ∈ pieces, place < piece.stop) →
    (∀ piece ∈ pieces, ¬ piece.Holds place) → Ignored source place

theorem Covers.cons {source : List Char} {place : Nat} {piece : Piece} {pieces : List Piece}
    (fits : piece.Fits source) (above : place ≤ piece.start)
    (passed : ∀ other, place ≤ other → other < piece.start → Ignored source other)
    (covers : Covers source piece.stop pieces) : Covers source place (piece :: pieces) := by
  have ordered : piece.start ≤ piece.stop := Nat.le_add_right _ _
  constructor
  · exact List.forall_mem_cons.mpr ⟨fits, covers.fits⟩
  · refine List.forall_mem_cons.mpr ⟨above, fun other member => ?_⟩
    exact Nat.le_trans (Nat.le_trans above ordered) (covers.above other member)
  · exact .cons covers.above covers.ascending
  · intro other lower reached free
    obtain ⟨first, others⟩ := List.forall_mem_cons.mp free
    by_cases before : other < piece.start
    · exact passed other lower before
    · have behind : piece.stop ≤ other := Nat.le_of_not_lt fun inside =>
        first ⟨Nat.le_of_not_lt before, inside⟩
      refine covers.passed other behind ?_ others
      obtain ⟨last, member, upper⟩ := reached
      rcases List.mem_cons.mp member with rfl | later
      · omega
      · exact ⟨last, later, upper⟩

/-- Calls from a place on cover the text from there. -/
theorem Cursor.Tracks.covers {source front : List Char} {cursor : Cursor}
    (tracks : Tracks front cursor) (whole : source = front ++ cursor.rest) (count : Nat) :
    ∃ pieces : List Piece, pieces.map (·.result) = cursor.calls count ∧
      Covers source front.length pieces := by
  induction count generalizing front cursor with
  | zero => exact ⟨[], rfl, nofun, nofun, .nil, fun _ _ reached => nomatch reached⟩
  | succ count ih =>
    obtain ⟨piece, result, fits, above, passed, after, parts⟩ := tracks.next whole
    obtain ⟨pieces, results, covers⟩ := ih after parts
    rw [List.length_append] at covers
    refine ⟨piece :: pieces, ?_, .cons fits above passed covers⟩
    rw [List.map_cons, result, results, calls]

section Pieces

variable {source front chars : List Char} {result : Except ControlCharacter Token} {piece : Piece}
  {pieces : List Piece} {place : Nat}

/-- A piece is a newline, or has no blank in it. -/
theorem Shows.solid (shows : Shows source front chars result) :
    chars = ['\n'] ∨ ∀ c ∈ chars, Text.isBlank c = false := by
  cases shows with
  | quote => exact .inr (List.forall_mem_singleton.mpr (by decide))
  | word _ plain => exact .inr fun c member => (plain c member).1
  | star => exact .inr (List.forall_mem_singleton.mpr (by decide))
  | newline => exact .inl rfl
  | eof => exact .inr nofun
  | refused _ shown => exact .inr (by simpa using shown)

theorem Shows.of_newline (shows : Shows source front chars result) (member : '\n' ∈ chars) :
    chars = ['\n'] ∧ ∃ token, result = .ok token ∧ token.kind = .newline := by
  cases shows with
  | newline => exact ⟨rfl, _, rfl, rfl⟩
  | quote => exact absurd member (by decide)
  | word _ plain => exact absurd (plain _ member).1 (by decide)
  | star => exact absurd member (by decide)
  | eof => cases member
  | refused _ shown =>
    rw [← List.mem_singleton.mp member] at shown
    exact absurd shown (by decide)

theorem Shows.of_star (shows : Shows source front chars result) (member : '*' ∈ chars) :
    chars = ['*'] ∧ ∃ token, result = .ok token ∧ token.kind = .star := by
  cases shows with
  | star => exact ⟨rfl, _, rfl, rfl⟩
  | quote => exact absurd member (by decide)
  | word _ plain => exact absurd rfl (plain _ member).2.1
  | newline => exact absurd member (by decide)
  | eof => cases member
  | refused forbidden _ =>
    rw [← List.mem_singleton.mp member] at forbidden
    exact absurd forbidden (by decide)

theorem Shows.of_quote (shows : Shows source front chars result) (opens : lineText front = [])
    (head : chars.head? = some '\'') :
    chars = ['\''] ∧ ∃ token, result = .ok token ∧ token.kind = .quote := by
  cases shows with
  | quote => exact ⟨rfl, _, rfl, rfl⟩
  | word _ _ unquoted => exact absurd head (unquoted opens)
  | star => exact absurd head (by decide)
  | newline => exact absurd head (by decide)
  | eof => cases head
  | refused forbidden _ =>
    cases head
    exact absurd forbidden (by decide)

/-- Behind the first character of a piece, its line is open. -/
theorem Shows.eq_nil_of_opens {before behind : List Char} {c : Char}
    (shows : Shows source front chars result) (parts : chars = before ++ c :: behind)
    (opens : lineText (front ++ before) = []) : before = [] := by
  cases before with
  | nil => rfl
  | cons first more =>
    rcases shows.solid with newline | solid
    · simp [parts] at newline
    · rw [parts] at solid
      have others : ∀ d ∈ first :: more, Text.isBlank d = false := fun d member =>
        solid d (List.mem_append_left _ member)
      have line : (lineText (front ++ first :: more)).head? = _ :=
        head?_lineText_cons (newline_notMem_of_solid others) (others first List.mem_cons_self)
      rw [opens] at line
      cases opened : (lineText front).head? <;> rw [opened] at line <;> cases line

/-- The characters of the tokens that are always written alike. -/
theorem Shows.chars_of_kind {token : Token} (shows : Shows source front chars (.ok token)) :
    (token.kind = .newline → chars = ['\n']) ∧ (token.kind = .star → chars = ['*']) ∧
      (token.kind = .quote → chars = ['\''] ∧ lineText front = []) ∧
      (token.kind = .eof → front = source) := by
  cases shows with
  | quote opens => exact ⟨nofun, nofun, fun _ => ⟨rfl, opens⟩, nofun⟩
  | word => exact ⟨nofun, nofun, nofun, nofun⟩
  | star => exact ⟨nofun, fun _ => rfl, nofun, nofun⟩
  | newline => exact ⟨fun _ => rfl, nofun, nofun, nofun⟩
  | eof ended => exact ⟨nofun, nofun, nofun, fun _ => ended⟩

/-- A place in a piece, with the characters of the piece up to it. -/
theorem Piece.Fits.of_holds (fits : piece.Fits source) (holds : piece.Holds place) :
    ∃ before c behind, piece.chars = before ++ c :: behind ∧
      place = (piece.front ++ before).length ∧ source[place]? = some c ∧
      source.take place = piece.front ++ before ∧
      source.take (place + 1) = piece.front ++ (before ++ [c]) := by
  obtain ⟨offset, rfl⟩ := Nat.exists_eq_add_of_le holds.1
  have inside : offset < piece.chars.length := Nat.lt_of_add_lt_add_left holds.2
  obtain ⟨rest, whole⟩ := fits.present
  obtain ⟨before, c, behind, parts, rfl⟩ : ∃ before c behind,
      piece.chars = before ++ c :: behind ∧ before.length = offset := by
    refine ⟨piece.chars.take offset, piece.chars[offset], piece.chars.drop (offset + 1), ?_,
      List.length_take_of_le (Nat.le_of_lt inside)⟩
    rw [← List.drop_eq_getElem_cons inside, List.take_append_drop]
  have size : piece.start + before.length = (piece.front ++ before).length := by
    rw [List.length_append, start]
  have text : source = piece.front ++ before ++ c :: (behind ++ rest) := by
    rw [← whole, parts]
    simp
  refine ⟨before, c, behind, parts, size, ?_, ?_, ?_⟩
  · rw [size, text, List.getElem?_append_right (Nat.le_refl _), Nat.sub_self]
    rfl
  · rw [size, text, List.take_left]
  · rw [size, text, List.take_length_add_append, List.append_assoc]
    rfl

/-- Nothing in a piece is passed over. -/
theorem Piece.Fits.not_ignored (fits : piece.Fits source) (holds : piece.Holds place) :
    ¬ Ignored source place := by
  obtain ⟨before, c, behind, parts, -, here, -, upTo⟩ := fits.of_holds holds
  rw [Ignored, here, upTo, not_or]
  have outside := fits.outside
  rcases fits.shows.solid with newline | solid
  · rw [newline] at parts outside
    rcases List.append_eq_singleton_iff.mp parts.symm with ⟨rfl, same⟩ | ⟨-, missing⟩
    · cases same
      exact ⟨by simp [isInlineBlank], outside '\n' rfl⟩
    · cases missing
  · rw [parts] at solid outside
    have shown : Text.isBlank c = false := solid c (by simp)
    refine ⟨by simp [isInlineBlank, shown], ?_⟩
    cases before with
    | nil => exact outside c rfl
    | cons first more =>
      have others : ∀ d ∈ first :: (more ++ [c]), Text.isBlank d = false := fun d member =>
        solid d (by grind)
      have unbroken := newline_notMem_of_solid others
      have single : '\n' ∉ [first] := by
        rw [List.mem_singleton]
        exact List.ne_of_not_mem_cons unbroken
      have opened := outside first rfl
      rw [InComment, head?_lineText_cons single (others first List.mem_cons_self)] at opened
      rw [List.cons_append, InComment,
        head?_lineText_cons unbroken (others first List.mem_cons_self)]
      exact opened

/-- A place that the pieces reach lies in one of them or is ignored, and never both. -/
theorem Covers.free_iff (covers : Covers source 0 pieces)
    (reached : ∃ piece ∈ pieces, place < piece.stop) :
    (∀ piece ∈ pieces, ¬ piece.Holds place) ↔ Ignored source place :=
  ⟨covers.passed place (Nat.zero_le _) reached, fun ignored piece member holds =>
    (covers.fits piece member).not_ignored holds ignored⟩

theorem Covers.exists_holds (covers : Covers source 0 pieces)
    (reached : ∃ piece ∈ pieces, place < piece.stop) (kept : ¬ Ignored source place) :
    ∃ piece ∈ pieces, piece.Holds place := by
  rw [← covers.free_iff reached] at kept
  simpa using kept

/-- The piece is a token of the kind, made of the one character at the place. -/
def Piece.Is (kind : TokenKind) (place : Nat) (piece : Piece) : Prop :=
  piece.start = place ∧ piece.stop = place + 1 ∧
    ∃ token, piece.result = .ok token ∧ token.kind = kind

/-- A piece of one character lies where its character does. -/
theorem Piece.Holds.is {c : Char} {kind : TokenKind} (holds : piece.Holds place)
    (single : piece.chars = [c] ∧ ∃ token, piece.result = .ok token ∧ token.kind = kind) :
    piece.Is kind place := by
  obtain ⟨lower, upper⟩ := holds
  rw [stop, single.1, List.length_singleton] at upper
  have same : piece.start = place := Nat.le_antisymm lower (Nat.le_of_lt_succ upper)
  refine ⟨same, ?_, single.2⟩
  rw [← same, stop, single.1, List.length_singleton, start]

theorem Piece.Fits.shows_of_is {kind : TokenKind} (fits : piece.Fits source)
    (is : piece.Is kind place) :
    ∃ token, Shows source piece.front piece.chars (.ok token) ∧ token.kind = kind := by
  obtain ⟨-, -, token, result, same⟩ := is
  exact ⟨token, result ▸ fits.shows, same⟩

/-- The character at the place of a token that is made of it alone. -/
theorem Piece.Fits.of_is {kind : TokenKind} (fits : piece.Fits source) (is : piece.Is kind place)
    {c : Char} (single : piece.chars = [c]) :
    source[place]? = some c ∧ source.take place = piece.front ∧
      ¬ InComment (source.take (place + 1)) := by
  obtain ⟨rfl, size, -⟩ := is
  have holds : piece.Holds piece.start := ⟨Nat.le_refl _, by omega⟩
  obtain ⟨before, d, behind, parts, here, found, front, upTo⟩ := fits.of_holds holds
  rw [List.length_append, start] at here
  obtain rfl : before = [] := List.length_eq_zero_iff.mp (by omega)
  obtain ⟨rfl, -⟩ : c = d ∧ [] = behind := List.cons.inj (single.symm.trans parts)
  refine ⟨found, by rw [front, List.append_nil], ?_⟩
  rw [upTo]
  exact fits.outside c (by rw [single]; rfl)

/-- A character that is not ignored lies in a piece, behind those in front of it. -/
theorem Covers.exists_shows (covers : Covers source 0 pieces)
    (reached : ∃ piece ∈ pieces, place < piece.stop) {c : Char} (found : source[place]? = some c)
    (kept : ¬ Ignored source place) :
    ∃ piece ∈ pieces, piece.Holds place ∧ ∃ before behind, piece.chars = before ++ c :: behind ∧
      source.take place = piece.front ++ before := by
  obtain ⟨piece, member, holds⟩ := covers.exists_holds reached kept
  obtain ⟨before, d, behind, parts, -, here, front, -⟩ := (covers.fits piece member).of_holds holds
  cases here.symm.trans found
  exact ⟨piece, member, holds, before, behind, parts, front⟩

/-- A character that is not blank is ignored in a comment only. -/
theorem ignored_iff {c : Char} (found : source[place]? = some c) (shown : isInlineBlank c = false) :
    Ignored source place ↔ InComment (source.take (place + 1)) := by
  simp [Ignored, found, shown]

theorem Covers.newline_iff (covers : Covers source 0 pieces)
    (reached : ∃ piece ∈ pieces, place < piece.stop) :
    (∃ piece ∈ pieces, piece.Is .newline place) ↔ source[place]? = some '\n' := by
  constructor
  · rintro ⟨piece, member, is⟩
    have fits := covers.fits piece member
    obtain ⟨token, shows, kind⟩ := fits.shows_of_is is
    exact (fits.of_is is (shows.chars_of_kind.1 kind)).1
  · intro found
    have kept : ¬ Ignored source place := by
      rw [ignored_iff found (by decide), List.take_add_one, found, InComment, Option.toList_some,
        lineText_newline]
      exact nofun
    obtain ⟨piece, member, holds, before, behind, parts, -⟩ :=
      covers.exists_shows reached found kept
    refine ⟨piece, member, holds.is ((covers.fits piece member).shows.of_newline ?_)⟩
    simp [parts]

theorem Covers.star_iff (covers : Covers source 0 pieces)
    (reached : ∃ piece ∈ pieces, place < piece.stop) :
    (∃ piece ∈ pieces, piece.Is .star place) ↔
      source[place]? = some '*' ∧ ¬ InComment (source.take (place + 1)) := by
  constructor
  · rintro ⟨piece, member, is⟩
    have fits := covers.fits piece member
    obtain ⟨token, shows, kind⟩ := fits.shows_of_is is
    obtain ⟨found, -, outside⟩ := fits.of_is is (shows.chars_of_kind.2.1 kind)
    exact ⟨found, outside⟩
  · rintro ⟨found, outside⟩
    rw [← ignored_iff found (by decide)] at outside
    obtain ⟨piece, member, holds, before, behind, parts, -⟩ :=
      covers.exists_shows reached found outside
    refine ⟨piece, member, holds.is ((covers.fits piece member).shows.of_star ?_)⟩
    simp [parts]

theorem Covers.quote_iff (covers : Covers source 0 pieces)
    (reached : ∃ piece ∈ pieces, place < piece.stop) :
    (∃ piece ∈ pieces, piece.Is .quote place) ↔
      source[place]? = some '\'' ∧ lineText (source.take place) = [] := by
  constructor
  · rintro ⟨piece, member, is⟩
    have fits := covers.fits piece member
    obtain ⟨token, shows, kind⟩ := fits.shows_of_is is
    obtain ⟨single, opens⟩ := shows.chars_of_kind.2.2.1 kind
    obtain ⟨found, front, -⟩ := fits.of_is is single
    exact ⟨found, front ▸ opens⟩
  · rintro ⟨found, opens⟩
    have kept : ¬ Ignored source place := by
      rw [ignored_iff found (by decide), List.take_add_one, found, InComment, Option.toList_some,
        head?_lineText_cons (by decide) (by decide), opens]
      decide
    obtain ⟨piece, member, holds, before, behind, parts, front⟩ :=
      covers.exists_shows reached found kept
    have shows := (covers.fits piece member).shows
    obtain rfl : before = [] := by
      rw [front] at opens
      exact shows.eq_nil_of_opens parts opens
    rw [front, List.append_nil] at opens
    exact ⟨piece, member, holds.is (shows.of_quote opens (by rw [parts]; rfl))⟩

/-- A result is written with the characters it is about, and gives their place. -/
theorem Shows.exact (shows : Shows source front chars result) :
    (∀ token, result = .ok token →
      token.lexeme.toList = chars ∧ token.start = .behind front) ∧
    (∀ found, result = .error found → [found.char] = chars ∧ found.position = .behind front) ∧
    (Cursor.isEnd result = false → chars ≠ []) := by
  cases shows with
  | word solid =>
    refine ⟨?_, nofun, fun _ => solid⟩
    rintro _ ⟨⟩
    exact ⟨String.toList_ofList, rfl⟩
  | refused =>
    refine ⟨nofun, ?_, fun _ => List.cons_ne_nil _ _⟩
    rintro _ ⟨⟩
    exact ⟨rfl, rfl⟩
  | eof =>
    refine ⟨?_, nofun, nofun⟩
    rintro _ ⟨⟩
    exact ⟨rfl, rfl⟩
  | _ =>
    refine ⟨?_, nofun, fun _ => List.cons_ne_nil _ _⟩
    rintro _ ⟨⟩
    exact ⟨by simp, rfl⟩

end Pieces

/-- Any number of calls gives the results of as many pieces of the text, in its order and without
overlap. A token is written with the characters of its piece and a refused character is the piece,
each with the place where the piece begins; only the end of the text has an empty piece. As far as
the pieces reach, what lies in none of them is white space within a line or in a comment, every
newline and every star outside comments is a token, and so is every quote mark that opens a line. -/
theorem Cursor.calls_cover (text : String) (count : Nat) :
    ∃ pieces : List Piece, pieces.map (·.result) = (ofText text).calls count ∧
      (∀ piece ∈ pieces, piece.Fits text.toList ∧
        (∀ token, piece.result = .ok token →
          token.lexeme.toList = piece.chars ∧ token.start = .behind piece.front) ∧
        (∀ found, piece.result = .error found → [found.char] = piece.chars ∧
          ∀ path, (Spec.refusal path found).span = some (.point path (.behind piece.front))) ∧
        (isEnd piece.result = false → piece.start < piece.stop)) ∧
      pieces.Pairwise (fun first second => first.stop ≤ second.start) ∧
      ∀ place, (∃ piece ∈ pieces, place < piece.stop) →
        ((∀ piece ∈ pieces, ¬ piece.Holds place) ↔ Ignored text.toList place) ∧
        ((∃ piece ∈ pieces, piece.Is .newline place) ↔ text.toList[place]? = some '\n') ∧
        ((∃ piece ∈ pieces, piece.Is .star place) ↔
          text.toList[place]? = some '*' ∧ ¬ InComment (text.toList.take (place + 1))) ∧
        ((∃ piece ∈ pieces, piece.Is .quote place) ↔
          text.toList[place]? = some '\'' ∧ lineText (text.toList.take place) = []) := by
  have tracks : Tracks [] (ofText text) := ⟨rfl, fun _ _ _ => ⟨rfl, nofun⟩⟩
  obtain ⟨pieces, results, covers⟩ : ∃ pieces : List Piece,
      pieces.map (·.result) = (ofText text).calls count ∧ Covers text.toList 0 pieces :=
    tracks.covers rfl count
  refine ⟨pieces, results, fun piece member => ?_, covers.ascending, fun place reached =>
    ⟨covers.free_iff reached, covers.newline_iff reached, covers.star_iff reached,
      covers.quote_iff reached⟩⟩
  have fits := covers.fits piece member
  obtain ⟨token, refused, solid⟩ := fits.shows.exact
  refine ⟨fits, token, fun found failed => ?_, fun going => ?_⟩
  · obtain ⟨single, position⟩ := refused found failed
    refine ⟨single, fun path => ?_⟩
    rw [Spec.refusal, position]
  · exact Nat.lt_add_of_pos_right (List.length_pos_iff.mpr (solid going))

/-- A quote mark, a word, a star and blanks, then a comment with a star in it, a refused character,
and the end of the text twice. -/
theorem Cursor.calls_cover_mixed :
    ∃ pieces : List Piece,
      pieces.map (·.result) = [.ok ⟨.quote, "'", ⟨1, 2⟩⟩, .ok ⟨.word, "é'", ⟨1, 3⟩⟩,
        .ok ⟨.star, "*", ⟨1, 5⟩⟩, .ok ⟨.newline, "\n", ⟨1, 7⟩⟩, .ok ⟨.newline, "\n", ⟨2, 4⟩⟩,
        .error ⟨'\x07', ⟨3, 1⟩⟩, .ok ⟨.word, "#", ⟨3, 2⟩⟩, .ok ⟨.eof, "", ⟨3, 3⟩⟩,
        .ok ⟨.eof, "", ⟨3, 3⟩⟩] ∧
      (∃ piece ∈ pieces, piece.Is .star 4) ∧ (∀ piece ∈ pieces, ¬ piece.Holds 9) ∧
      ∀ piece ∈ pieces, ∀ found, piece.result = .error found → [found.char] = piece.chars ∧
        ∀ path, (Spec.refusal path found).span = some (.point path (.behind piece.front)) := by
  obtain ⟨pieces, results, each, -, places⟩ := calls_cover " 'é'*\x0b\n #*\n\x07#" 9
  have listed : (ofText " 'é'*\x0b\n #*\n\x07#").calls 9 = [.ok ⟨.quote, "'", ⟨1, 2⟩⟩,
      .ok ⟨.word, "é'", ⟨1, 3⟩⟩, .ok ⟨.star, "*", ⟨1, 5⟩⟩, .ok ⟨.newline, "\n", ⟨1, 7⟩⟩,
      .ok ⟨.newline, "\n", ⟨2, 4⟩⟩, .error ⟨'\x07', ⟨3, 1⟩⟩, .ok ⟨.word, "#", ⟨3, 2⟩⟩,
      .ok ⟨.eof, "", ⟨3, 3⟩⟩, .ok ⟨.eof, "", ⟨3, 3⟩⟩] := by
    decide +kernel
  rw [listed] at results
  obtain ⟨last, member, result⟩ := List.mem_map.mp
    (results ▸ (by simp) : Except.ok ⟨.eof, "", ⟨3, 3⟩⟩ ∈ pieces.map fun piece => piece.result)
  have shows := (each last member).1.shows
  rw [result] at shows
  have reached (place : Nat) (inside : place < 13) : ∃ piece ∈ pieces, place < piece.stop := by
    refine ⟨last, member, Nat.lt_of_lt_of_le inside (Nat.le_trans ?_ (Nat.le_add_right _ _))⟩
    rw [shows.chars_of_kind.2.2.2 rfl]
    decide
  refine ⟨pieces, results, ?_, ?_, fun piece listed => (each piece listed).2.2.1⟩
  · exact (places 4 (reached 4 (by decide))).2.2.1.mpr ⟨by decide, by decide⟩
  · exact (places 9 (reached 9 (by decide))).1.mpr (.inr (by decide))

end DspIsa
