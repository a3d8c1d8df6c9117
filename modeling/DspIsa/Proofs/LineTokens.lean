import DspIsa.Spec.Reader

/-! How the tokens of a text fall into its lines. Where no character is refused, each line gives
exactly the tokens that its own characters spell, wherever it stands in the text. -/
namespace DspIsa

/-- The place `count` characters further on in the same line. -/
def Position.right (place : Position) (count : Nat) : Position :=
  ⟨place.line, place.column + count⟩

@[simp] theorem Position.right_right (place : Position) (count more : Nat) :
    (place.right count).right more = place.right (count + more) := by
  simp [Position.right, Nat.add_assoc]

theorem Token.stop_eq (token : Token) : token.stop = token.start.right token.lexeme.length := rfl

/-- The tokens of a stretch of a line, for a stretch in which no quote mark or comment opens. -/
def Token.ofStretch (place : Position) : List Char → List Token
  | [] => []
  | c :: rest =>
    if Text.isBlank c then ofStretch (place.right 1) rest
    else if c = '*' then ⟨.star, "*", place⟩ :: ofStretch (place.right 1) rest
    else
      ⟨.word, String.ofList (c :: rest.takeWhile isWordChar), place⟩ ::
        ofStretch (place.right ((rest.takeWhile isWordChar).length + 1)) (rest.dropWhile isWordChar)
termination_by chars => chars.length
decreasing_by
  · simp
  · simp
  · exact Nat.lt_succ_of_le (List.dropWhile_sublist _).length_le

namespace Token

variable {c : Char} {rest : List Char} {place : Position}

@[simp] theorem ofStretch_nil : ofStretch place [] = [] := by rw [ofStretch.eq_def]

theorem ofStretch_blank (blank : Text.isBlank c = true) :
    ofStretch place (c :: rest) = ofStretch (place.right 1) rest := by
  rw [ofStretch.eq_def]
  exact if_pos blank

theorem ofStretch_star :
    ofStretch place ('*' :: rest) = ⟨.star, "*", place⟩ :: ofStretch (place.right 1) rest := by
  rw [ofStretch.eq_def]
  exact (if_neg (by decide)).trans (if_pos rfl)

theorem ofStretch_word (shown : Text.isBlank c = false) (other : c ≠ '*') :
    ofStretch place (c :: rest) =
      ⟨.word, String.ofList (c :: rest.takeWhile isWordChar), place⟩ ::
        ofStretch (place.right ((rest.takeWhile isWordChar).length + 1))
          (rest.dropWhile isWordChar) := by
  rw [ofStretch.eq_def]
  exact (if_neg (by simp [shown])).trans (if_neg other)

end Token

/-- Characters none of which is refused. -/
def Clean (chars : List Char) : Prop :=
  ∀ c ∈ chars, Text.isBlank c = false → isForbidden c = false

/-- The forbidden characters that reading refuses. -/
def isRefused (c : Char) : Bool := isForbidden c && !Text.isBlank c

theorem isRefused_eq_false_of_isBlank {c : Char} (blank : Text.isBlank c = true) :
    isRefused c = false := by
  simp [isRefused, blank]

section Refused

variable {c : Char} {chars : List Char}

theorem isWordChar_of_isRefused (refused : isRefused c = true) : isWordChar c = false := by
  have forbidden : isForbidden c = true := by simp_all [isRefused]
  simp [isWordChar, forbidden]

theorem clean_iff : Clean chars ↔ ∀ c ∈ chars, isRefused c = false := by
  refine forall₂_congr fun c _ => ?_
  unfold isRefused
  cases isForbidden c <;> cases Text.isBlank c <;> simp

/-- Either nothing in some characters is refused, or there is a first one that is. -/
theorem clean_or_split (chars : List Char) :
    Clean chars ∨ ∃ before c rest, chars = before ++ c :: rest ∧ Clean before ∧
      isRefused c = true := by
  induction chars with
  | nil => exact .inl (clean_iff.mpr nofun)
  | cons c rest ih =>
    cases refused : isRefused c with
    | true => exact .inr ⟨[], c, rest, rfl, clean_iff.mpr nofun, refused⟩
    | false =>
      rw [clean_iff]
      rcases ih with clean | ⟨before, d, more, rfl, clean, found⟩
      · exact .inl (List.forall_mem_cons.mpr ⟨refused, clean_iff.mp clean⟩)
      · refine .inr ⟨c :: before, d, more, rfl, ?_, found⟩
        exact clean_iff.mpr (List.forall_mem_cons.mpr ⟨refused, clean_iff.mp clean⟩)

end Refused

/-- What follows a line: the end of the text or a newline. -/
def EndsLine (tail : List Char) : Prop := ∀ c ∈ tail.head?, c = '\n'

namespace Reading

/-- A reading with some tokens in front. -/
def after (tokens : List Token) (reading : Reading) : Reading :=
  { reading with tokens := tokens ++ reading.tokens }

variable {reading : Reading} {tokens more : List Token}

@[simp] theorem after_nil : reading.after [] = reading := rfl

@[simp] theorem after_after :
    (reading.after more).after tokens = reading.after (tokens ++ more) := by
  simp [after]

@[simp] theorem refused_after : (reading.after tokens).refused = reading.refused := rfl

@[simp] theorem tokens_after : (reading.after tokens).tokens = tokens ++ reading.tokens := rfl

end Reading

namespace Cursor

variable {chars tail : List Char} {line column : Nat} {start : Bool}

theorem read_of_next_error {cursor : Cursor} {refused : ControlCharacter} {behind : Cursor}
    (step : cursor.next = (.error refused, behind)) : cursor.read = ⟨[], some refused, behind⟩ := by
  rw [read]
  split
  · rename_i step'
    cases step.symm.trans step'
    rfl
  · rename_i step'
    cases step.symm.trans step'

theorem read_of_next {cursor : Cursor} {token : Token} {behind : Cursor}
    (step : cursor.next = (.ok token, behind)) (going : token.kind ≠ .eof) :
    cursor.read = behind.read.after [token] := by
  rw [read]
  split
  · rename_i step'
    cases step.symm.trans step'
  · rename_i step'
    cases step.symm.trans step'
    rw [dif_neg going]
    rfl

theorem read_of_next_eof {cursor : Cursor} {token : Token} {behind : Cursor}
    (step : cursor.next = (.ok token, behind)) (ended : token.kind = .eof) :
    cursor.read = ⟨[token], none, behind⟩ := by
  rw [read]
  split
  · rename_i step'
    cases step.symm.trans step'
  · rename_i step'
    cases step.symm.trans step'
    rw [dif_pos ended]

theorem read_congr {cursor other : Cursor} (same : cursor.next = other.next) :
    cursor.read = other.read := by
  rcases step : cursor.next with ⟨found | token, behind⟩
  · rw [read_of_next_error step, read_of_next_error (same ▸ step)]
  · by_cases ended : token.kind = .eof
    · rw [read_of_next_eof step ended, read_of_next_eof (same ▸ step) ended]
    · exact (read_of_next step ended).trans (read_of_next (same ▸ step) ended).symm

/-- Blanks in front of a token are passed over. -/
theorem skipIgnored_blank {c : Char} (blank : isInlineBlank c = true) (rest : List Char) :
    (⟨c :: rest, line, column, start⟩ : Cursor).skipIgnored =
      (⟨rest, line, column + 1, start⟩ : Cursor).skipIgnored := by
  have skipped : (⟨c :: rest, line, column, start⟩ : Cursor).skipWhile isInlineBlank =
      (⟨rest, line, column + 1, start⟩ : Cursor).skipWhile isInlineBlank := by
    simp only [skipWhile, List.dropWhile_cons, List.takeWhile_cons, blank, if_true,
      List.length_cons]
    congr 1
    omega
  unfold skipIgnored
  rw [skipped]

theorem read_blank {c : Char} (blank : isInlineBlank c = true) (rest : List Char) :
    (⟨c :: rest, line, column, start⟩ : Cursor).read =
      (⟨rest, line, column + 1, start⟩ : Cursor).read :=
  read_congr (by unfold next; rw [skipIgnored_blank blank])

theorem skipWhile_of_head {p : Char → Bool} {c : Char} (stops : p c = false) (rest : List Char) :
    (⟨c :: rest, line, column, start⟩ : Cursor).skipWhile p = ⟨c :: rest, line, column, start⟩ := by
  simp [skipWhile, stops]

/-- A character that opens no comment and is no blank begins a token. -/
theorem next_of_head {c : Char} (shown : isInlineBlank c = false)
    (plain : (start && c == '#') = false) (rest : List Char) :
    (⟨c :: rest, line, column, start⟩ : Cursor).next =
      (⟨c :: rest, line, column, start⟩ : Cursor).take c rest := by
  have stays : (⟨c :: rest, line, column, start⟩ : Cursor).skipIgnored =
      ⟨c :: rest, line, column, start⟩ := by
    unfold skipIgnored
    rw [skipWhile_of_head shown]
    simp only [List.head?_cons, Option.some_beq_some, plain]
    rfl
  unfold next
  rw [stays]

theorem take_star (rest : List Char) :
    (⟨'*' :: rest, line, column, start⟩ : Cursor).take '*' rest =
      (.ok ⟨.star, "*", ⟨line, column + 1⟩⟩, ⟨rest, line, column + 1, false⟩) := rfl

theorem take_quote (rest : List Char) :
    (⟨'\'' :: rest, line, column, true⟩ : Cursor).take '\'' rest =
      (.ok ⟨.quote, "'", ⟨line, column + 1⟩⟩, ⟨rest, line, column + 1, false⟩) := rfl

theorem take_newline (rest : List Char) :
    (⟨'\n' :: rest, line, column, start⟩ : Cursor).take '\n' rest =
      (.ok ⟨.newline, "\n", ⟨line, column + 1⟩⟩, ⟨rest, line + 1, 0, true⟩) := rfl

/-- Only a quote mark is read otherwise where a line begins. -/
theorem take_unquoted {c : Char} (unquoted : (c == '\'' && start) = false) (rest : List Char) :
    (⟨c :: rest, line, column, start⟩ : Cursor).take c rest =
      (⟨c :: rest, line, column, false⟩ : Cursor).take c rest := by
  unfold take
  simp only [unquoted, Bool.and_false]
  rfl

variable {c : Char} {rest : List Char}

theorem take_forbidden (ordinary : c ≠ '\n') (other : c ≠ '*') (forbidden : isForbidden c = true) :
    (⟨c :: rest, line, column, false⟩ : Cursor).take c rest =
      (.error ⟨c, ⟨line, column + 1⟩⟩, ⟨rest, line, column + 1, false⟩) := by
  simp [take, ordinary, other, forbidden, position]

theorem take_word (ordinary : c ≠ '\n') (other : c ≠ '*') (allowed : isForbidden c = false) :
    (⟨c :: rest, line, column, false⟩ : Cursor).take c rest =
      (.ok ⟨.word, String.ofList (c :: rest.takeWhile isWordChar), ⟨line, column + 1⟩⟩,
        ⟨rest.dropWhile isWordChar, line, column + 1 + (rest.takeWhile isWordChar).length,
          false⟩) := by
  simp [take, ordinary, other, allowed, position, skipWhile]

end Cursor

theorem isWordChar_newline : isWordChar '\n' = false := by decide

theorem isInlineBlank_of_isBlank {c : Char} (blank : Text.isBlank c = true)
    (ordinary : c ≠ '\n') : isInlineBlank c = true := by
  simp [isInlineBlank, blank, ordinary]

theorem isInlineBlank_of_not_isBlank {c : Char} (shown : Text.isBlank c = false) :
    isInlineBlank c = false := by
  simp [isInlineBlank, shown]

section Stops

variable {p : Char → Bool} {tail : List Char}

/-- A run of characters ends where the text behind it stops the run. -/
theorem takeWhile_append_of_stops (stops : ∀ c ∈ tail.head?, p c = false) (chars : List Char) :
    (chars ++ tail).takeWhile p = chars.takeWhile p := by
  induction chars with
  | nil =>
    cases tail with
    | nil => rfl
    | cons c rest => simp [stops c rfl]
  | cons c chars ih => simp [List.takeWhile_cons, ih]

theorem dropWhile_append_of_stops (stops : ∀ c ∈ tail.head?, p c = false) (chars : List Char) :
    (chars ++ tail).dropWhile p = chars.dropWhile p ++ tail := by
  induction chars with
  | nil =>
    cases tail with
    | nil => rfl
    | cons c rest => simp [stops c rfl]
  | cons c chars ih =>
    rw [List.cons_append, List.dropWhile_cons, List.dropWhile_cons, ih]
    split <;> rfl

theorem EndsLine.stops (ends : EndsLine tail) (newline : p '\n' = false) :
    ∀ c ∈ tail.head?, p c = false := by
  intro c head
  rw [ends c head, newline]

end Stops

namespace Cursor

variable {chars tail rest : List Char} {c : Char} {line column : Nat} {start : Bool}

/-- A stretch without refused characters is read to the tokens that it spells. -/
theorem read_clean (stops : ∀ c ∈ tail.head?, isWordChar c = false) (unbroken : '\n' ∉ chars)
    (clean : Clean chars) :
    (⟨chars ++ tail, line, column, false⟩ : Cursor).read =
      (⟨tail, line, column + chars.length, false⟩ : Cursor).read.after
        (Token.ofStretch ⟨line, column + 1⟩ chars) := by
  generalize here : (⟨line, column + 1⟩ : Position) = place
  induction place, chars using Token.ofStretch.induct generalizing column with
  | case1 place => simp
  | case2 place c rest blank ih =>
    obtain ⟨-, later⟩ := List.forall_mem_cons.mp clean
    obtain ⟨ordinary, inner⟩ := List.ne_and_not_mem_of_not_mem_cons unbroken
    rw [List.cons_append, read_blank (isInlineBlank_of_isBlank blank (Ne.symm ordinary)),
      ih inner later (congrArg (Position.right · 1) here), Token.ofStretch_blank blank,
      List.length_cons, Nat.add_right_comm, Nat.add_assoc column]
  | case3 place rest _ ih =>
    obtain ⟨-, later⟩ := List.forall_mem_cons.mp clean
    obtain ⟨-, inner⟩ := List.ne_and_not_mem_of_not_mem_cons unbroken
    have step : (⟨'*' :: (rest ++ tail), line, column, false⟩ : Cursor).next =
        (⟨'*' :: (rest ++ tail), line, column, false⟩ : Cursor).take '*' (rest ++ tail) :=
      next_of_head (by decide) rfl (rest ++ tail)
    rw [take_star, here] at step
    rw [List.cons_append, read_of_next step (by simp),
      ih inner later (congrArg (Position.right · 1) here), Reading.after_after,
      Token.ofStretch_star, List.length_cons, Nat.add_right_comm, Nat.add_assoc column]
    rfl
  | case4 place c rest shown other ih =>
    have solid : Text.isBlank c = false := Bool.not_eq_true _ ▸ shown
    obtain ⟨head, later⟩ := List.forall_mem_cons.mp clean
    obtain ⟨ordinary, inner⟩ := List.ne_and_not_mem_of_not_mem_cons unbroken
    have step : (⟨c :: (rest ++ tail), line, column, false⟩ : Cursor).next =
        (⟨c :: (rest ++ tail), line, column, false⟩ : Cursor).take c (rest ++ tail) :=
      next_of_head (isInlineBlank_of_not_isBlank solid) rfl (rest ++ tail)
    rw [take_word (Ne.symm ordinary) other (head solid), takeWhile_append_of_stops stops,
      dropWhile_append_of_stops stops, here] at step
    have size : (rest.takeWhile isWordChar).length + (rest.dropWhile isWordChar).length =
        rest.length := by
      rw [← List.length_append, List.takeWhile_append_dropWhile]
    have place' : (⟨line, column + 1 + (rest.takeWhile isWordChar).length + 1⟩ : Position) =
        place.right ((rest.takeWhile isWordChar).length + 1) := by
      rw [← here, Position.right, Nat.add_assoc (column + 1)]
    rw [List.cons_append, read_of_next step (by simp),
      ih (fun member => inner ((List.dropWhile_sublist _).subset member))
        (fun d member => later d ((List.dropWhile_sublist _).subset member)) place',
      Reading.after_after, Token.ofStretch_word solid other, List.length_cons, ← size]
    have total : column + 1 + (rest.takeWhile isWordChar).length +
        (rest.dropWhile isWordChar).length = column +
          ((rest.takeWhile isWordChar).length + (rest.dropWhile isWordChar).length + 1) := by omega
    rw [total]
    rfl

/-- A refused character ends the reading, wherever it stands, and no line begins behind it. -/
theorem read_refused (refused : isRefused c = true) (rest : List Char) :
    (⟨c :: rest, line, column, start⟩ : Cursor).read =
      ⟨[], some ⟨c, line, column + 1⟩, ⟨rest, line, column + 1, false⟩⟩ := by
  have parts : isForbidden c = true ∧ Text.isBlank c = false := by simpa [isRefused] using refused
  obtain ⟨forbidden, shown⟩ := parts
  have other (d : Char) (allowed : isForbidden d = false) : c ≠ d := by
    rintro rfl
    rw [allowed] at forbidden
    cases forbidden
  have step : (⟨c :: rest, line, column, start⟩ : Cursor).next =
      (⟨c :: rest, line, column, start⟩ : Cursor).take c rest :=
    next_of_head (isInlineBlank_of_not_isBlank shown) (by simp [other '#' (by decide)]) rest
  rw [take_unquoted (by simp [other '\'' (by decide)]),
    take_forbidden (other '\n' (by decide)) (other '*' (by decide)) forbidden] at step
  exact read_of_next_error step

/-- A stretch up to the end of its line is read to the tokens that it spells, if no character of it
is refused. -/
theorem read_stretch (ends : EndsLine tail) (unbroken : '\n' ∉ chars)
    (accepted : (⟨chars ++ tail, line, column, false⟩ : Cursor).read.refused = none) :
    Clean chars ∧ (⟨chars ++ tail, line, column, false⟩ : Cursor).read =
      (⟨tail, line, column + chars.length, false⟩ : Cursor).read.after
        (Token.ofStretch ⟨line, column + 1⟩ chars) := by
  rcases clean_or_split chars with clean | ⟨before, c, rest, rfl, clean, refused⟩
  · exact ⟨clean, read_clean (ends.stops isWordChar_newline) unbroken clean⟩
  · have stops : ∀ d ∈ (c :: (rest ++ tail)).head?, isWordChar d = false := by
      simpa using isWordChar_of_isRefused refused
    have front : '\n' ∉ before := fun member => unbroken (List.mem_append_left _ member)
    rw [List.append_assoc, List.cons_append, read_clean stops front clean, read_refused refused]
      at accepted
    cases accepted

theorem skipIgnored_end (ends : EndsLine tail) :
    (⟨tail, line, column, start⟩ : Cursor).skipIgnored = ⟨tail, line, column, start⟩ := by
  cases tail with
  | nil => simp [skipIgnored, skipWhile]
  | cons c rest =>
    rw [ends c rfl]
    unfold skipIgnored
    rw [skipWhile_of_head (by decide)]
    simp

/-- A comment is passed over up to the end of its line. -/
theorem skipIgnored_comment (ends : EndsLine tail) (unbroken : '\n' ∉ chars) :
    (⟨'#' :: chars ++ tail, line, column, true⟩ : Cursor).skipIgnored =
      ⟨tail, line, column + (chars.length + 1), true⟩ := by
  have passed : ∀ c ∈ '#' :: chars, (c != '\n') = true := by
    intro c member
    rcases List.mem_cons.mp member with rfl | inner
    · decide
    · exact bne_iff_ne.mpr fun same => unbroken (same ▸ inner)
  unfold skipIgnored
  rw [List.cons_append, skipWhile_of_head (by decide), ← List.cons_append]
  simp only [List.cons_append, List.head?_cons, beq_self_eq_true, Bool.and_self, if_true]
  have stops : ∀ c ∈ tail.head?, (c != '\n') = false := ends.stops (by decide)
  have behind : tail.dropWhile (· != '\n') = tail := dropWhile_append_of_stops stops []
  have untouched : tail.takeWhile (· != '\n') = [] := takeWhile_append_of_stops stops []
  rw [← List.cons_append, skipWhile, List.dropWhile_append_of_pos passed,
    List.takeWhile_append_of_pos passed, behind, untouched, List.append_nil]
  rfl

theorem read_blanks (unbroken : '\n' ∉ chars) :
    (⟨chars ++ tail, line, column, start⟩ : Cursor).read =
      (⟨chars.dropWhile Text.isBlank ++ tail, line,
        column + (chars.takeWhile Text.isBlank).length, start⟩ : Cursor).read := by
  induction chars generalizing column with
  | nil => rfl
  | cons c rest ih =>
    have ordinary : c ≠ '\n' := fun same => unbroken (same ▸ List.mem_cons_self)
    rw [List.dropWhile_cons, List.takeWhile_cons]
    cases blank : Text.isBlank c with
    | true =>
      rw [List.cons_append, read_blank (isInlineBlank_of_isBlank blank ordinary),
        ih fun member => unbroken (List.mem_cons_of_mem c member), if_pos rfl, if_pos rfl,
        List.length_cons, Nat.add_right_comm, Nat.add_assoc column]
    | false => rfl

end Cursor

namespace Spec

/-- One line of a text, counted from one, without the newline that ends it. -/
structure TextLine where
  number : Nat
  chars : List Char
  deriving DecidableEq, Repr

namespace TextLine

/-- The lines of a text whose first line has the given number. -/
def numbered (number : Nat) (text : List Char) : List TextLine :=
  ((text.splitOnP (· == '\n')).zipIdx number).map fun entry => ⟨entry.2, entry.1⟩

def ofText (source : String) : List TextLine := numbered 1 source.toList

/-- The line from its first character that is not blank. -/
def visible (line : TextLine) : List Char := line.chars.dropWhile Text.isBlank

/-- Blank lines and comments. -/
def isIgnored (line : TextLine) : Bool :=
  match line.visible with
  | [] => true
  | c :: _ => c == '#'

/-- A line whose first character that is not blank opens a comment. -/
def isComment (line : TextLine) : Bool := line.visible.head? == some '#'

def isQuoted (line : TextLine) : Bool := line.visible.head? == some '\''

/-- The line behind its quote mark, if it has one. -/
def body (line : TextLine) : List Char := if line.isQuoted then line.visible.tail else line.visible

/-- The place of the first character that is not blank. -/
def first (line : TextLine) : Position :=
  ⟨line.number, (line.chars.takeWhile Text.isBlank).length + 1⟩

/-- The tokens that the characters of a line spell. -/
def tokens (line : TextLine) : List Token :=
  if line.isIgnored then []
  else if line.isQuoted then
    ⟨.quote, "'", line.first⟩ :: Token.ofStretch (line.first.right 1) line.body
  else Token.ofStretch line.first line.body

variable {number : Nat} {chars rest : List Char}

theorem ne_newline (unbroken : '\n' ∉ chars) : ∀ c ∈ chars, (c == '\n') = false := by
  rintro c member
  exact beq_eq_false_iff_ne.mpr fun same => unbroken (same ▸ member)

theorem numbered_of_unbroken (unbroken : '\n' ∉ chars) :
    numbered number chars = [⟨number, chars⟩] := by
  rw [numbered, List.splitOnP_eq_singleton (ne_newline unbroken)]
  rfl

theorem numbered_append (unbroken : '\n' ∉ chars) :
    numbered number (chars ++ '\n' :: rest) = ⟨number, chars⟩ :: numbered (number + 1) rest := by
  rw [numbered, List.splitOnP_append_cons_of_forall_mem (ne_newline unbroken) '\n' rfl]
  rfl

theorem not_isBlank_of_visible {line : TextLine} {c : Char}
    (shown : line.visible = c :: rest) : Text.isBlank c = false := by
  have stopped := List.head?_dropWhile_not Text.isBlank line.chars
  rw [← visible, shown] at stopped
  exact stopped

variable {line : TextLine}

theorem exists_visible (kept : line.isIgnored = false) :
    ∃ c rest, line.visible = c :: rest ∧ Text.isBlank c = false := by
  cases shown : line.visible with
  | nil => simp [isIgnored, shown] at kept
  | cons c rest => exact ⟨c, rest, rfl, not_isBlank_of_visible shown⟩

theorem length_chars (line : TextLine) :
    (line.chars.takeWhile Text.isBlank).length + line.visible.length = line.chars.length := by
  rw [visible, ← List.length_append, List.takeWhile_append_dropWhile]

theorem tokens_of_ignored (ignored : line.isIgnored = true) : line.tokens = [] := if_pos ignored

theorem tokens_of_quoted (kept : line.isIgnored = false) (quoted : line.isQuoted = true) :
    line.tokens =
      ⟨.quote, "'", line.first⟩ :: Token.ofStretch (line.first.right 1) line.body := by
  simp [tokens, kept, quoted]

theorem tokens_of_unquoted (kept : line.isIgnored = false) (unquoted : line.isQuoted = false) :
    line.tokens = Token.ofStretch line.first line.body := by
  simp [tokens, kept, unquoted]

/-- The quote mark in front of the body of a line. -/
def mark (line : TextLine) : List Token :=
  if line.isQuoted then [⟨.quote, "'", line.first⟩] else []

/-- How many characters stand in front of the body of a line. -/
def indent (line : TextLine) : Nat :=
  (line.chars.takeWhile Text.isBlank).length + line.mark.length

theorem tokens_of_kept (kept : line.isIgnored = false) :
    line.tokens = line.mark ++ Token.ofStretch ⟨line.number, line.indent + 1⟩ line.body := by
  cases quoted : line.isQuoted with
  | true =>
    rw [tokens_of_quoted kept quoted, indent, mark, quoted]
    rfl
  | false =>
    rw [tokens_of_unquoted kept quoted, indent, mark, quoted]
    rfl

theorem length_chars_eq (kept : line.isIgnored = false) :
    line.chars.length = line.indent + line.body.length := by
  obtain ⟨c, rest, shown, -⟩ := exists_visible kept
  rw [← length_chars, indent, mark, body, shown]
  cases line.isQuoted with
  | true =>
    simp only [if_true, List.length_cons, List.tail_cons, List.length_nil]
    omega
  | false => simp

theorem mem_chars_of_mem_body {c : Char} (member : c ∈ line.body) : c ∈ line.chars := by
  unfold body at member
  split at member
  · exact (List.dropWhile_sublist _).subset (List.mem_of_mem_tail member)
  · exact (List.dropWhile_sublist _).subset member

theorem newline_notMem_body (unbroken : '\n' ∉ line.chars) : '\n' ∉ line.body :=
  fun member => unbroken (mem_chars_of_mem_body member)

end TextLine

end Spec

namespace Cursor

variable {chars tail : List Char} {number column : Nat}

/-- Where no quote mark or comment opens the line, its beginning is read as any other stretch. -/
theorem read_unopened {c : Char} (shown : Text.isBlank c = false) (unquoted : c ≠ '\'')
    (uncommented : c ≠ '#') :
    (⟨c :: chars, number, column, true⟩ : Cursor).read =
      (⟨c :: chars, number, column, false⟩ : Cursor).read := by
  have visible := isInlineBlank_of_not_isBlank shown
  refine read_congr ?_
  rw [next_of_head visible (by simp [uncommented]), next_of_head visible (by simp),
    take_unquoted (by simp [unquoted])]

theorem read_quote :
    (⟨'\'' :: chars, number, column, true⟩ : Cursor).read =
      (⟨chars, number, column + 1, false⟩ : Cursor).read.after
        [⟨.quote, "'", ⟨number, column + 1⟩⟩] :=
  read_of_next ((next_of_head (by decide) (by decide) chars).trans (take_quote chars)) (by simp)

theorem read_end (start : Bool) :
    (⟨[], number, column, start⟩ : Cursor).read =
      ⟨[⟨.eof, "", ⟨number, column + 1⟩⟩], none, ⟨[], number, column, start⟩⟩ :=
  read_of_next_eof (by unfold next; rw [skipIgnored_end (by simp [EndsLine])]; rfl) rfl

theorem read_newline (start : Bool) :
    (⟨'\n' :: chars, number, column, start⟩ : Cursor).read =
      (⟨chars, number + 1, 0, true⟩ : Cursor).read.after
        [⟨.newline, "\n", ⟨number, column + 1⟩⟩] :=
  read_of_next ((next_of_head (by decide) (by simp) chars).trans (take_newline chars)) (by simp)

theorem read_comment (ends : EndsLine tail) (unbroken : '\n' ∉ chars) :
    (⟨'#' :: chars ++ tail, number, column, true⟩ : Cursor).read =
      (⟨tail, number, column + (chars.length + 1), true⟩ : Cursor).read :=
  read_congr (by unfold next; rw [skipIgnored_comment ends unbroken, skipIgnored_end ends])

end Cursor

namespace Spec.TextLine

variable {line : TextLine} {tail : List Char}

/-- The quote mark of a line is read by itself, and the rest as any other stretch. -/
theorem read_kept (kept : line.isIgnored = false) (unbroken : '\n' ∉ line.chars) :
    (⟨line.chars ++ tail, line.number, 0, true⟩ : Cursor).read =
      (⟨line.body ++ tail, line.number, line.indent, false⟩ : Cursor).read.after line.mark := by
  obtain ⟨c, rest, shown, solid⟩ := exists_visible kept
  have uncommented : c ≠ '#' := by simpa [isIgnored, shown] using kept
  rw [Cursor.read_blanks unbroken, ← visible, Nat.zero_add, indent, mark, body, shown]
  by_cases quote : c = '\''
  · subst quote
    have quoted : line.isQuoted = true := by simp [isQuoted, shown]
    rw [quoted, List.cons_append, Cursor.read_quote]
    rfl
  · have unquoted : line.isQuoted = false := by simp [isQuoted, shown, quote]
    rw [unquoted, List.cons_append, Cursor.read_unopened solid quote uncommented]
    rfl

/-- A blank line is passed over, and so is a comment if the text goes on in the next line. -/
theorem read_ignored (ignored : line.isIgnored = true) (unbroken : '\n' ∉ line.chars)
    (ends : line.isComment = true → EndsLine tail) :
    (⟨line.chars ++ tail, line.number, 0, true⟩ : Cursor).read =
      (⟨tail, line.number, line.chars.length, true⟩ : Cursor).read := by
  have inner : '\n' ∉ line.visible := fun member =>
    unbroken ((List.dropWhile_sublist _).subset member)
  rw [Cursor.read_blanks unbroken, ← visible, Nat.zero_add, ← length_chars]
  cases shown : line.visible with
  | nil => rfl
  | cons c rest =>
    obtain rfl : c = '#' := by simpa [isIgnored, shown] using ignored
    rw [shown] at inner
    have more : '\n' ∉ rest := (List.ne_and_not_mem_of_not_mem_cons inner).2
    exact Cursor.read_comment (ends (by simp [isComment, shown])) more

/-- A whole line is read to its tokens, whatever follows it. -/
theorem read_textLine (line : TextLine) (ends : EndsLine tail) (unbroken : '\n' ∉ line.chars)
    (accepted : (⟨line.chars ++ tail, line.number, 0, true⟩ : Cursor).read.refused = none) :
    (line.isIgnored = false → Clean line.body) ∧
      ∃ column start, (⟨line.chars ++ tail, line.number, 0, true⟩ : Cursor).read =
        (⟨tail, line.number, column, start⟩ : Cursor).read.after line.tokens := by
  cases ignored : line.isIgnored with
  | true =>
    rw [read_ignored ignored unbroken fun _ => ends, tokens_of_ignored ignored]
    exact ⟨nofun, _, _, rfl⟩
  | false =>
    rw [read_kept ignored unbroken] at accepted ⊢
    obtain ⟨clean, same⟩ := Cursor.read_stretch ends (newline_notMem_body unbroken) accepted
    rw [same, tokens_of_kept ignored]
    exact ⟨fun _ => clean, _, _, Reading.after_after⟩

end Spec.TextLine

namespace Token

/-- A token that stands inside a line. -/
def IsInline (token : Token) : Prop := token.kind ≠ .newline ∧ token.kind ≠ .eof

theorem isInline_ofStretch (place : Position) (chars : List Char) :
    ∀ token ∈ ofStretch place chars, token.IsInline := by
  induction place, chars using ofStretch.induct with
  | case1 place => simp
  | case2 place c rest blank ih =>
    rwa [ofStretch_blank blank]
  | case3 place rest _ ih =>
    rw [ofStretch_star]
    exact List.forall_mem_cons.mpr ⟨by simp [IsInline], ih⟩
  | case4 place c rest shown other ih =>
    rw [ofStretch_word (Bool.not_eq_true _ ▸ shown) other]
    exact List.forall_mem_cons.mpr ⟨by simp [IsInline], ih⟩

end Token

namespace Spec

theorem TextLine.isInline_tokens (line : TextLine) : ∀ token ∈ line.tokens, token.IsInline := by
  unfold tokens
  split
  · simp
  · split
    · exact List.forall_mem_cons.mpr ⟨by simp [Token.IsInline], Token.isInline_ofStretch _ _⟩
    · exact Token.isInline_ofStretch _ _

variable {reading : Reading} {tokens : List Token} {token : Token}

theorem lines_eq (accepted : reading.refused = none) :
    lines reading = (reading.tokens.filter fun token => token.kind != .eof).splitOnP
      fun token => token.kind == .newline := by
  simp [lines, accepted]

theorem filter_inline (inline : ∀ token ∈ tokens, token.IsInline) :
    tokens.filter (fun token => token.kind != .eof) = tokens :=
  List.filter_eq_self.mpr fun token member => bne_iff_ne.mpr (inline token member).2

theorem ne_newline_of_inline (inline : ∀ token ∈ tokens, token.IsInline) :
    ∀ token ∈ tokens, (token.kind == .newline) = false :=
  fun token member => beq_eq_false_iff_ne.mpr (inline token member).1

theorem lines_last (inline : ∀ token ∈ tokens, token.IsInline) (ended : token.kind = .eof)
    (cursor : Cursor) : lines (Reading.after tokens ⟨[token], none, cursor⟩) = [tokens] := by
  have dropped : ([token].filter fun token => token.kind != .eof) = [] := by simp [ended]
  rw [lines_eq rfl, Reading.tokens_after, List.filter_append, filter_inline inline, dropped,
    List.append_nil, List.splitOnP_eq_singleton (ne_newline_of_inline inline)]

/-- The lines of a reading begin with the line of the tokens in front of its first newline. -/
theorem lines_newline (inline : ∀ token ∈ tokens, token.IsInline)
    (newline : token.kind = .newline) :
    lines ((reading.after [token]).after tokens) = tokens :: lines reading := by
  have stays : ([token].filter fun token => token.kind != .eof) = [token] := by simp [newline]
  have parts : ((reading.after [token]).after tokens).tokens.filter
        (fun token => token.kind != .eof) =
      tokens ++ token :: reading.tokens.filter fun token => token.kind != .eof := by
    rw [Reading.tokens_after, Reading.tokens_after, List.filter_append, List.filter_append,
      filter_inline inline, stays, List.singleton_append]
  have first := List.splitOnP_append_cons_of_forall_mem (ne_newline_of_inline inline) token
    (by simp [newline]) (reading.tokens.filter fun token => token.kind != .eof)
  unfold lines
  dsimp only
  rw [parts, first, Reading.refused_after, Reading.refused_after]
  split
  · exact List.dropLast_cons_of_ne_nil (List.splitOnP_ne_nil _ _)
  · rfl

/-- From the beginning of a line on, the lines of tokens are those that the text lines spell. -/
theorem lines_read {number : Nat} {text : List Char}
    (accepted : (⟨text, number, 0, true⟩ : Cursor).read.refused = none) :
    lines (⟨text, number, 0, true⟩ : Cursor).read =
        (TextLine.numbered number text).map TextLine.tokens ∧
      ∀ line ∈ TextLine.numbered number text, line.isIgnored = false → Clean line.body := by
  induction size : text.length using Nat.strongRecOn generalizing text number with
  | ind n ih =>
    subst size
    by_cases newline : '\n' ∈ text
    · obtain ⟨chars, rest, rfl, unbroken⟩ := List.eq_append_cons_of_mem newline
      rw [TextLine.numbered_append unbroken]
      obtain ⟨clean, column, start, same⟩ :=
        TextLine.read_textLine ⟨number, chars⟩ (by simp [EndsLine]) unbroken accepted
      rw [Cursor.read_newline] at same
      rw [same] at accepted ⊢
      have later : (⟨rest, number + 1, 0, true⟩ : Cursor).read.refused = none := accepted
      obtain ⟨behind, cleaned⟩ := ih rest.length (by simp; omega) later rfl
      rw [lines_newline (TextLine.isInline_tokens _) rfl, behind]
      exact ⟨rfl, List.forall_mem_cons.mpr ⟨clean, cleaned⟩⟩
    · rw [TextLine.numbered_of_unbroken newline]
      have ends : EndsLine [] := by simp [EndsLine]
      obtain ⟨clean, column, start, same⟩ :=
        TextLine.read_textLine ⟨number, text⟩ ends newline (by rwa [List.append_nil])
      rw [List.append_nil, Cursor.read_end] at same
      rw [same, lines_last (TextLine.isInline_tokens _) rfl]
      exact ⟨rfl, List.forall_mem_singleton.mpr clean⟩

theorem exists_ofText {source : String} (lexed : (Token.ofText source).toOption.isSome = true) :
    ∃ tokens, Token.ofText source = .ok tokens := by
  cases read : Token.ofText source with
  | ok tokens => exact ⟨tokens, rfl⟩
  | error found =>
    rw [read] at lexed
    cases lexed

/-- Where no character of a text is refused, its lines of tokens are those of its text lines. -/
theorem lines_ofText {source : String} {tokens : List Token}
    (lexed : Token.ofText source = .ok tokens) :
    (Cursor.ofText source).read.refused = none ∧
      lines (Cursor.ofText source).read = (TextLine.ofText source).map TextLine.tokens ∧
      ∀ line ∈ TextLine.ofText source, line.isIgnored = false → Clean line.body := by
  have accepted : (Cursor.ofText source).read.refused = none := by
    unfold Token.ofText at lexed
    dsimp only at lexed
    split at lexed
    · cases lexed
    · assumption
  exact ⟨accepted, lines_read accepted⟩

end Spec

end DspIsa
