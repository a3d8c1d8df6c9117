import DspIsa.Proofs.TokenPieces

/-! Calls of a cursor get on. A call passes over at most one comment, and its result is made of at
least one character unless the text is at its end. So the end is reached after at most as many calls
as the text has characters, and the calls from there on change nothing. -/
namespace DspIsa

namespace Cursor

variable {cursor : Cursor}

/-- The character is read by itself, whatever follows it. -/
def standsAlone (cursor : Cursor) (c : Char) : Bool :=
  c == '\n' || c == '*' || (c == '\'' && cursor.lineStart) || isForbidden c

/-- The run of word characters ahead as a word, be it empty. -/
def readRun (cursor : Cursor) : Except ControlCharacter Token × Cursor :=
  (.ok ⟨.word, String.ofList (cursor.rest.takeWhile isWordChar), cursor.position⟩,
    { cursor.skipWhile isWordChar with lineStart := false })

/-- How a call goes on at the next character: at a comment it begins again behind the comment, and
anywhere else it has its result. -/
def attempt (cursor : Cursor) : Cursor ⊕ (Except ControlCharacter Token × Cursor) :=
  let cursor := cursor.skipWhile isInlineBlank
  match cursor.rest with
  | [] => .inr (.ok ⟨.eof, "", cursor.position⟩, cursor)
  | c :: rest =>
    if cursor.lineStart && c == '#' then .inl (cursor.skipWhile (· != '\n'))
    else if cursor.standsAlone c then .inr (cursor.take c rest)
    else .inr cursor.readRun

/-- A call passes over a number of comments and then has its result. -/
inductive Settles : Cursor → Nat → Except ControlCharacter Token × Cursor → Prop where
  | done {cursor : Cursor} {answer : Except ControlCharacter Token × Cursor}
      (ends : cursor.attempt = .inr answer) : Settles cursor 0 answer
  | again {cursor behind : Cursor} {rounds : Nat} {answer : Except ControlCharacter Token × Cursor}
      (comment : cursor.attempt = .inl behind) (settles : Settles behind rounds answer) :
      Settles cursor (rounds + 1) answer

/-- A character that is not read by itself begins a word, so no run of word characters is empty. -/
theorem readRun_eq_take {c : Char} {rest : List Char} (here : cursor.rest = c :: rest)
    (shown : isInlineBlank c = false) (other : cursor.standsAlone c = false) :
    cursor.readRun = cursor.take c rest := by
  simp only [standsAlone, Bool.or_eq_false_iff] at other
  obtain ⟨⟨⟨newline, star⟩, quote⟩, allowed⟩ := other
  have solid : Text.isBlank c = false := by simpa [isInlineBlank, newline, bne] using shown
  have starts : isWordChar c = true :=
    isWordChar_iff.mpr ⟨solid, beq_eq_false_iff_ne.mp star, allowed⟩
  simp only [take, newline, star, quote, allowed, Bool.false_eq_true, ↓reduceIte]
  simp [readRun, skipWhile, here, starts, Nat.add_right_comm, Nat.add_assoc]

/-- A stretch that is passed over ends in front of a character that is not of its kind. -/
theorem head?_skipWhile {p : Char → Bool} :
    ∀ c ∈ (cursor.skipWhile p).rest.head?, p c = false := by
  intro c head
  have stops := List.head?_dropWhile_not p cursor.rest
  rw [skipWhile, Option.mem_def] at head
  rwa [head] at stops

/-- Whether a call has a comment to pass over. -/
def meetsComment (cursor : Cursor) : Bool :=
  cursor.lineStart && (cursor.skipWhile isInlineBlank).rest.head? == some '#'

theorem skipIgnored_of_plain (plain : cursor.meetsComment = false) :
    cursor.skipIgnored = cursor.skipWhile isInlineBlank := by
  rw [skipIgnored, if_neg]
  exact Bool.eq_false_iff.mp plain

theorem skipIgnored_of_meetsComment (comment : cursor.meetsComment = true) :
    cursor.skipIgnored = (cursor.skipWhile isInlineBlank).skipWhile (· != '\n') := by
  rw [skipIgnored, if_pos]
  exact comment

/-- Away from comments a call has its result at once. -/
theorem attempt_of_plain (plain : cursor.meetsComment = false) :
    cursor.attempt = .inr cursor.next := by
  have stops : ∀ c ∈ (cursor.skipWhile isInlineBlank).rest.head?, isInlineBlank c = false :=
    head?_skipWhile
  have comment : ((cursor.skipWhile isInlineBlank).lineStart &&
    (cursor.skipWhile isInlineBlank).rest.head? == some '#') = false := plain
  unfold attempt next
  rw [skipIgnored_of_plain plain]
  generalize cursor.skipWhile isInlineBlank = behind at comment stops
  dsimp only
  cases here : behind.rest with
  | nil => rfl
  | cons c rest =>
    rw [here, List.head?_cons, Option.some_beq_some] at comment
    have shown : isInlineBlank c = false := stops c (by rw [here]; rfl)
    simp only [comment, Bool.false_eq_true, ↓reduceIte]
    cases alone : behind.standsAlone c with
    | true => rfl
    | false => exact congrArg Sum.inr (readRun_eq_take here shown alone)

theorem meetsComment_of_endsLine (ends : EndsLine cursor.rest) :
    cursor.meetsComment = false := by
  cases here : cursor.rest with
  | nil => simp [meetsComment, skipWhile, here]
  | cons c rest =>
    obtain rfl : c = '\n' := ends c (by rw [here]; rfl)
    have shown : isInlineBlank '\n' = false := by decide
    simp [meetsComment, skipWhile, here, shown]

/-- A comment makes the call begin again, and behind it no further comment can follow. -/
theorem attempt_of_meetsComment (comment : cursor.meetsComment = true) :
    cursor.attempt = .inl cursor.skipIgnored ∧
      cursor.skipIgnored.attempt = .inr cursor.next := by
  have behind := skipIgnored_of_meetsComment comment
  have ends : EndsLine cursor.skipIgnored.rest := by
    intro c head
    rw [behind] at head
    simpa using head?_skipWhile c head
  have stays : cursor.skipIgnored.skipIgnored = cursor.skipIgnored := skipIgnored_end ends
  constructor
  · rw [meetsComment, Bool.and_eq_true, beq_iff_eq] at comment
    obtain ⟨start, mark⟩ := comment
    obtain ⟨rest, here⟩ := List.head?_eq_some_iff.mp mark
    have same : (cursor.skipWhile isInlineBlank).lineStart = true := start
    rw [behind]
    unfold attempt
    simp only [here, same, beq_self_eq_true, Bool.and_self, ↓reduceIte]
  · rw [attempt_of_plain (meetsComment_of_endsLine ends), next, stays]
    rfl

/-- A call passes over one comment if it meets one, and then has its result. -/
theorem settles_iff {rounds : Nat} {answer : Except ControlCharacter Token × Cursor} :
    cursor.Settles rounds answer ↔ rounds = cursor.meetsComment.toNat ∧ answer = cursor.next := by
  cases comment : cursor.meetsComment with
  | false =>
    have ends := attempt_of_plain comment
    constructor
    · rintro (done | again)
      · exact ⟨rfl, Sum.inr.inj (done.symm.trans ends)⟩
      · cases again.symm.trans ends
    · rintro ⟨rfl, rfl⟩
      exact .done ends
  | true =>
    obtain ⟨again, ends⟩ := attempt_of_meetsComment comment
    constructor
    · rintro (done | ⟨restart, done | more⟩)
      · cases done.symm.trans again
      · obtain rfl := Sum.inl.inj (restart.symm.trans again)
        exact ⟨rfl, Sum.inr.inj (done.symm.trans ends)⟩
      · obtain rfl := Sum.inl.inj (restart.symm.trans again)
        cases more.symm.trans ends
    · rintro ⟨rfl, rfl⟩
      exact .again again (.done ends)

/-- The characters that a result is written with. -/
def written : Except ControlCharacter Token → List Char
  | .ok token => token.lexeme.toList
  | .error found => [found.char]

/-- A call takes the characters of its result off what is left of the text, at least one, and what
it passes over in front of them. -/
structure Consumes (cursor : Cursor) : Prop where
  some : written cursor.next.1 ≠ []
  ahead : ∃ gap, cursor.rest = gap ++ written cursor.next.1 ++ cursor.next.2.rest

theorem exists_gap (cursor : Cursor) : ∃ gap, cursor.rest = gap ++ cursor.skipIgnored.rest := by
  have blanks : (cursor.skipWhile isInlineBlank).rest <:+ cursor.rest := List.dropWhile_suffix _
  have skipped : cursor.skipIgnored.rest <:+ cursor.rest := by
    cases comment : cursor.meetsComment with
    | false => rwa [skipIgnored_of_plain comment]
    | true =>
      rw [skipIgnored_of_meetsComment comment]
      exact (List.dropWhile_suffix _).trans blanks
  exact ⟨_, (List.suffix_iff_eq_append.mp skipped).symm⟩

/-- What is taken at a character begins with that character. -/
theorem written_take (cursor : Cursor) (c : Char) (rest : List Char) :
    ∃ more, written (cursor.take c rest).1 = c :: more ∧
      rest = more ++ (cursor.take c rest).2.rest := by
  unfold take
  dsimp only
  split
  · rename_i newline
    exact ⟨[], by simp [written, beq_iff_eq.mp newline], rfl⟩
  split
  · rename_i star
    exact ⟨[], by simp [written, beq_iff_eq.mp star], rfl⟩
  split
  · rename_i quote
    rw [Bool.and_eq_true, beq_iff_eq] at quote
    exact ⟨[], by simp [written, quote.1], rfl⟩
  split
  · exact ⟨[], rfl, rfl⟩
  · exact ⟨rest.takeWhile isWordChar, String.toList_ofList, List.takeWhile_append_dropWhile.symm⟩

theorem next_of_nil (ended : cursor.skipIgnored.rest = []) :
    cursor.next = (.ok ⟨.eof, "", cursor.skipIgnored.position⟩, cursor.skipIgnored) := by
  unfold next
  dsimp only
  rw [ended]

theorem next_of_cons {c : Char} {rest : List Char} (here : cursor.skipIgnored.rest = c :: rest) :
    cursor.next = cursor.skipIgnored.take c rest := by
  unfold next
  dsimp only
  rw [here]

theorem isEnd_next_iff : isEnd cursor.next.1 = true ↔ cursor.skipIgnored.rest = [] := by
  cases here : cursor.skipIgnored.rest with
  | nil => simp [next_of_nil here, isEnd]
  | cons c rest => simp [next_of_cons here, isEnd_take]

/-- Unless it reaches the end of the text, a call consumes some of it. -/
theorem consumes (going : isEnd cursor.next.1 = false) : cursor.Consumes := by
  obtain ⟨gap, passed⟩ := cursor.exists_gap
  have left : cursor.skipIgnored.rest ≠ [] := by
    rw [ne_eq, ← isEnd_next_iff, going]
    decide
  obtain ⟨c, rest, here⟩ := List.exists_cons_of_ne_nil left
  have step := next_of_cons here
  obtain ⟨more, shown, parts⟩ := written_take cursor.skipIgnored c rest
  rw [here, parts] at passed
  refine ⟨by simp [step, shown], gap, ?_⟩
  rw [step, shown, passed, List.append_assoc, List.cons_append]

/-- At the end of the text, the cursor stays where it is. -/
theorem next_next_of_isEnd (ended : isEnd cursor.next.1 = true) :
    cursor.next.2.next = cursor.next := by
  have here := isEnd_next_iff.mp ended
  have ends : EndsLine cursor.skipIgnored.rest := by simp [EndsLine, here]
  have stays : cursor.skipIgnored.skipIgnored = cursor.skipIgnored := skipIgnored_end ends
  have again := next_of_nil (stays.symm ▸ here : cursor.skipIgnored.skipIgnored.rest = [])
  rw [next_of_nil here, again, stays]

/-- The cursor that a number of calls leave. -/
def after (cursor : Cursor) : Nat → Cursor
  | 0 => cursor
  | count + 1 => cursor.next.2.after count

theorem after_succ (cursor : Cursor) (count : Nat) :
    cursor.after (count + 1) = (cursor.after count).next.2 := by
  induction count generalizing cursor with
  | zero => rfl
  | succ count ih => exact ih cursor.next.2

theorem calls_eq_map (cursor : Cursor) (count : Nat) :
    cursor.calls count = (List.range count).map fun call => (cursor.after call).next.1 := by
  induction count generalizing cursor with
  | zero => rfl
  | succ count ih =>
    rw [calls, ih, List.range_succ_eq_map, List.map_cons, List.map_map]
    rfl

/-- Since every call in front of it consumes a character, the end is not further away than what is
left of the text is long. -/
theorem exists_end (cursor : Cursor) : ∃ count ≤ cursor.rest.length,
    (∀ call < count, isEnd (cursor.after call).next.1 = false) ∧
      isEnd (cursor.after count).next.1 = true := by
  induction size : cursor.rest.length using Nat.strongRecOn generalizing cursor with
  | ind n ih =>
    subst size
    cases ended : isEnd cursor.next.1 with
    | true => exact ⟨0, Nat.zero_le _, nofun, ended⟩
    | false =>
      have shorter := length_next_lt cursor ended
      obtain ⟨count, bound, going, last⟩ := ih _ shorter cursor.next.2 rfl
      refine ⟨count + 1, by omega, fun call before => ?_, last⟩
      cases call with
      | zero => exact ended
      | succ call => exact going call (Nat.lt_of_succ_lt_succ before)

/-- From the end of the text on, every call comes to the same. -/
theorem next_after_of_isEnd {count : Nat} (ended : isEnd (cursor.after count).next.1 = true)
    {call : Nat} (later : count ≤ call) :
    (cursor.after call).next = (cursor.after count).next := by
  induction call, later using Nat.le_induction with
  | base => rfl
  | succ call later ih => rw [after_succ, next_next_of_isEnd (by rw [ih, ended]), ih]

/-- A cursor that tracks its place still does after a number of calls. -/
theorem Tracks.after {front source : List Char} (tracks : Tracks front cursor)
    (whole : source = front ++ cursor.rest) (count : Nat) :
    ∃ passed, Tracks passed (cursor.after count) ∧
      source = passed ++ (cursor.after count).rest := by
  induction count generalizing front cursor with
  | zero => exact ⟨front, tracks, whole⟩
  | succ count ih =>
    obtain ⟨piece, -, -, -, -, behind, parts⟩ := tracks.next whole
    exact ih behind parts

/-- The end of the text is found behind all of its characters. -/
theorem Tracks.next_of_isEnd {front source : List Char} (tracks : Tracks front cursor)
    (whole : source = front ++ cursor.rest) (ended : isEnd cursor.next.1 = true) :
    cursor.next.1 = .ok ⟨.eof, "", .behind source⟩ := by
  obtain ⟨⟨before, chars, result⟩, same, fits, -⟩ := tracks.next whole
  have shows : Shows source before chars result := fits.shows
  obtain rfl : result = cursor.next.1 := same
  generalize cursor.next.1 = result at ended shows
  cases shows with
  | eof all => rw [all]
  | _ => cases ended

/-- A reading that nothing stops has the results of all calls up to the end as its tokens. -/
theorem map_tokens_read {count : Nat}
    (going : ∀ call < count, isEnd (cursor.after call).next.1 = false)
    (ended : isEnd (cursor.after count).next.1 = true) (whole : cursor.read.refused = none) :
    cursor.read.tokens.map .ok = cursor.calls (count + 1) := by
  induction count generalizing cursor with
  | zero =>
    rcases step : cursor.next with ⟨refused | token, behind⟩
    · simp [Cursor.after, step, isEnd] at ended
    · have last : token.kind = .eof := by simpa [Cursor.after, step, isEnd] using ended
      rw [read_of_next_eof step last, calls, step]
      rfl
  | succ count ih =>
    have first := going 0 (Nat.succ_pos _)
    rcases step : cursor.next with ⟨refused | token, behind⟩
    · rw [read_of_next_error step] at whole
      cases whole
    · have more : token.kind ≠ .eof := by simpa [Cursor.after, step, isEnd] using first
      have later (call : Nat) (before : call < count) :
          isEnd (behind.after call).next.1 = false := by
        have shown := going (call + 1) (Nat.succ_lt_succ before)
        rwa [Cursor.after, step] at shown
      rw [Cursor.after, step] at ended
      rw [read_of_next step more, Reading.refused_after] at whole
      rw [read_of_next step more, Reading.tokens_after, calls, step, List.map_append,
        ih later ended whole]
      rfl

/-- The results up to the end, all of them tokens, have the end as their last one and nowhere
else. -/
theorem exists_front {count : Nat} {tokens : List Token} {last : Token}
    (going : ∀ call < count, isEnd (cursor.after call).next.1 = false)
    (ended : (cursor.after count).next.1 = .ok last)
    (results : tokens.map .ok = cursor.calls (count + 1)) :
    ∃ front, tokens = front ++ [last] ∧ ∀ token ∈ front, token.kind ≠ .eof := by
  rw [calls_eq_map, List.range_succ, List.map_append, List.map_singleton, ended] at results
  obtain ⟨front, rest, rfl, before, behind⟩ := List.map_eq_append_iff.mp results
  obtain ⟨token, rfl, same⟩ := List.map_eq_singleton_iff.mp behind
  cases same
  refine ⟨front, rfl, fun token member => ?_⟩
  have listed : Except.ok token ∈ front.map (Except.ok (ε := ControlCharacter)) :=
    List.mem_map_of_mem member
  rw [before] at listed
  obtain ⟨call, inside, shown⟩ := List.mem_map.mp listed
  have more := going call (List.mem_range.mp inside)
  rw [shown] at more
  exact beq_eq_false_iff_ne.mp more

theorem read_of_ofText {text : String} {tokens : List Token}
    (accepted : Token.ofText text = .ok tokens) :
    (ofText text).read.refused = none ∧ (ofText text).read.tokens = tokens := by
  unfold Token.ofText at accepted
  cases whole : (ofText text).read.refused with
  | none => simpa [whole] using accepted
  | some found => simp [whole] at accepted

/-- Calls on one cursor, behind refused characters as well, reach the end of the text after at most
as many other results as it has characters, each of which consumes some of them. All calls from
there on give the same end at the same place. A call passes over one comment at most. And where
nothing is refused, the tokens of the text are the results up to the end, which comes last and
once. -/
theorem calls_reach_end (text : String) :
    (∀ (cursor : Cursor) (rounds : Nat) (answer : Except ControlCharacter Token × Cursor),
      cursor.Settles rounds answer ↔
        rounds = cursor.meetsComment.toNat ∧ answer = cursor.next) ∧
    ∃ count ≤ text.length,
      (∀ call < count, isEnd ((ofText text).after call).next.1 = false ∧
        ((ofText text).after call).Consumes) ∧
      (∃ ending, ∀ call, count ≤ call → ((ofText text).after call).next =
        (.ok ⟨.eof, "", .behind text.toList⟩, ending)) ∧
      ∀ tokens, Token.ofText text = .ok tokens →
        tokens.map .ok = (ofText text).calls (count + 1) ∧
        ∃ front, tokens = front ++ [⟨.eof, "", .behind text.toList⟩] ∧
          ∀ token ∈ front, token.kind ≠ .eof := by
  refine ⟨fun cursor rounds answer => settles_iff, ?_⟩
  obtain ⟨count, bound, going, ended⟩ := exists_end (ofText text)
  have tracks : Tracks [] (ofText text) := ⟨rfl, fun _ _ _ => ⟨rfl, nofun⟩⟩
  obtain ⟨passed, behind, parts⟩ := tracks.after rfl count
  have last : ((ofText text).after count).next.1 = .ok ⟨.eof, "", .behind text.toList⟩ :=
    behind.next_of_isEnd parts ended
  refine ⟨count, ?_, fun call before => ⟨going call before, consumes (going call before)⟩,
    ⟨((ofText text).after count).next.2, fun call later => ?_⟩, fun tokens read => ?_⟩
  · rwa [← String.length_toList]
  · rw [next_after_of_isEnd ended later, ← last]
  · obtain ⟨whole, rfl⟩ := read_of_ofText read
    have results := map_tokens_read going ended whole
    exact ⟨results, exists_front going last results⟩

/-- A comment in front of a line of tokens and another at the end of the text. -/
theorem calls_reach_end_commented :
    (ofText " # c\n'A* b\n  #").Settles 1
      (.ok ⟨.newline, "\n", ⟨1, 5⟩⟩, ⟨"'A* b\n  #".toList, 2, 0, true⟩) ∧
    ∃ tokens, Token.ofText " # c\n'A* b\n  #" = .ok tokens ∧ tokens.length ≤ 15 ∧
      ∃ front, tokens = front ++ [⟨.eof, "", ⟨3, 4⟩⟩] ∧ ∀ token ∈ front, token.kind ≠ .eof := by
  obtain ⟨settles, count, bound, -, -, read⟩ := calls_reach_end " # c\n'A* b\n  #"
  obtain ⟨tokens, accepted⟩ : ∃ tokens, Token.ofText " # c\n'A* b\n  #" = .ok tokens :=
    Spec.exists_ofText (by decide +kernel)
  obtain ⟨results, front, parts, alone⟩ := read tokens accepted
  refine ⟨?_, tokens, accepted, ?_, front, parts, alone⟩
  · exact (settles _ _ _).mpr ⟨by decide, by decide +kernel⟩
  · have size := congrArg List.length results
    rw [List.length_map, calls_eq_map, List.length_map, List.length_range] at size
    rw [size]
    exact Nat.succ_le_succ bound

end Cursor

end DspIsa
