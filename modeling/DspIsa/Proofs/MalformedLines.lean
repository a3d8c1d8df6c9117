import DspIsa.Proofs.LineGrammar

/-! What is reported about a text with malformed lines: one fault for each of them, the first that
applies, at a place on the line. No other line is reported, wherever it stands. -/
namespace DspIsa

namespace Spec

namespace TextLine

/-- The code of the first fault that applies to a line. -/
def complaint? (line : TextLine) : Option String :=
  if line.body.count '*' = 0 then some "parser.missing-separator"
  else if 2 ≤ line.body.count '*' then some "parser.extra-separator"
  else if (line.body.takeWhile (· != '*')).all Text.isBlank then
    some "parser.missing-opcode"
  else if line.pattern.length ∉ (if line.isQuoted then [8] else [16, 32]) then
    some "parser.pattern-width"
  else if line.pattern.toList.any (fun c => '2' ≤ c ∧ c ≤ '9') then some "parser.pattern-digit"
  else none

instance (line : TextLine) : Decidable line.Grammatical :=
  decidable_of_iff _ line.fault?_eq_none_iff

/-- The lines of a text that are neither blank nor comments and do not keep to the grammar. -/
def malformed (source : String) : List TextLine :=
  (remaining source).filter fun line => ¬ line.Grammatical

/-- A stretch of one character or more of the line. -/
structure Holds (line : TextLine) (span : Span) : Prop where
  start : span.start.line = line.number
  stop : span.stop.line = line.number
  first : 1 ≤ span.start.column
  shown : span.start.column < span.stop.column
  last : span.stop.column ≤ line.chars.length + 1

/-- The report of the line: its first fault, somewhere on the line. -/
structure ReportedBy (path : String) (line : TextLine) (report : Diagnostic) : Prop where
  phase : report.phase = .parser
  severity : report.severity = .error
  code : line.complaint? = some report.code
  span : ∃ span, report.span = some span ∧ span.path = path ∧ line.Holds span

variable {line : TextLine}

/-- A pattern that cannot be read has a wrong width, or else a wrong digit. -/
theorem code_of_scan {kind : PatternKind} {text : String} {fault : PatternFault}
    (solid : ∀ c ∈ text.toList, Text.isBlank c = false)
    (failed : BitPattern.scan kind text = .error fault) :
    (LineFault.pattern fault).code =
      if (kind.width? text.length).isSome then "parser.pattern-digit"
      else "parser.pattern-width" := by
  have kept : text.toList.filter (fun c => !Text.isBlank c) = text.toList :=
    List.filter_eq_self.mpr fun c member => by simp [solid c member]
  unfold BitPattern.scan at failed
  dsimp only at failed
  rw [kept, String.length_toList] at failed
  split at failed
  · rename_i unread
    cases failed
    rw [unread]
    rfl
  · rename_i width read
    rw [read]
    split at failed
    · cases failed
      rfl
    · cases failed

/-- The faults win in the order in which the conditions of the grammar are checked. -/
theorem complaint?_eq (line : TextLine) : line.complaint? = line.fault?.map LineFault.code := by
  have named : line.opcode = [] ↔ (line.body.takeWhile (· != '*')).all Text.isBlank = true := by
    rw [opcode, groups_eq_nil_iff, List.all_eq_true]
  have width := exists_width_iff line
  rw [← Option.isSome_iff_exists] at width
  have solid := solid_pattern line
  have digits : line.pattern.toList.any (fun c => '2' ≤ c ∧ c ≤ '9') = true ↔
      ¬ ∀ c ∈ line.pattern.toList, ¬ ('2' ≤ c ∧ c ≤ '9') := by
    simp
  have read := exists_scan_iff line.kind solid
  rw [← Option.isSome_iff_exists, width] at read
  unfold complaint? fault?
  split
  · rename_i none
    rw [none]
    rfl
  split
  · split
    · omega
    · omega
    · rfl
  have single : line.body.count '*' = 1 := by omega
  rw [single]
  split
  · rename_i blank
    rw [if_pos (named.mpr blank)]
    rfl
  rename_i shown
  rw [if_neg fun empty => shown (named.mp empty)]
  cases scanned : BitPattern.scan line.kind line.pattern with
  | ok pattern =>
    obtain ⟨allowed, right⟩ := read.mp ⟨pattern, scanned⟩
    rw [if_neg (not_not.mpr allowed), if_neg fun wrong => digits.mp wrong right]
    rfl
  | error fault =>
    change _ = some (LineFault.pattern fault).code
    rw [code_of_scan solid scanned]
    by_cases allowed : line.pattern.length ∈ if line.isQuoted then [8] else [16, 32]
    · have wrong : line.pattern.toList.any (fun c => '2' ≤ c ∧ c ≤ '9') = true := by
        refine digits.mpr fun right => ?_
        obtain ⟨pattern, done⟩ := read.mpr ⟨allowed, right⟩
        cases scanned.symm.trans done
      rw [if_neg (not_not.mpr allowed), if_pos wrong, if_pos (width.mpr allowed)]
    · rw [if_pos allowed, if_neg fun read => allowed (width.mp read)]

end TextLine

end Spec

/-- The tokens of a stretch lie on it, each at least one character long. -/
theorem Token.lies_ofStretch (place : Position) (chars : List Char) :
    ∀ token ∈ Token.ofStretch place chars, token.start.line = place.line ∧
      place.column ≤ token.start.column ∧ 1 ≤ token.lexeme.length ∧
      token.start.column + token.lexeme.length ≤ place.column + chars.length := by
  induction place, chars using Token.ofStretch.induct with
  | case1 place => simp
  | case2 place c rest blank ih =>
    rw [Token.ofStretch_blank blank]
    intro token member
    obtain ⟨line, start, shown, stop⟩ := ih token member
    simp only [Position.right, List.length_cons] at line start stop ⊢
    omega
  | case3 place rest _ ih =>
    rw [Token.ofStretch_star]
    intro token member
    rcases List.mem_cons.mp member with rfl | later
    · have size : "*".length = 1 := rfl
      refine ⟨rfl, Nat.le_refl _, Nat.le_of_eq size.symm, ?_⟩
      rw [size]
      exact Nat.add_le_add_left (Nat.le_add_left 1 _) _
    · obtain ⟨line, start, shown, stop⟩ := ih token later
      simp only [Position.right, List.length_cons] at line start stop ⊢
      omega
  | case4 place c rest shown other ih =>
    have size : (rest.takeWhile isWordChar).length + (rest.dropWhile isWordChar).length =
        rest.length := by
      rw [← List.length_append, List.takeWhile_append_dropWhile]
    rw [Token.ofStretch_word (Bool.not_eq_true _ ▸ shown) other]
    intro token member
    rcases List.mem_cons.mp member with rfl | later
    · refine ⟨rfl, Nat.le_refl _, ?_, ?_⟩ <;>
        simp only [String.length_ofList, List.length_cons] <;> omega
    · obtain ⟨line, start, shown, stop⟩ := ih token later
      simp only [Position.right, List.length_cons] at line start stop ⊢
      omega

namespace Spec

/-- The tokens of a line lie on it. -/
theorem TextLine.holds_of_mem_tokens {line : TextLine} {token : Token}
    (member : token ∈ line.tokens) (path : String) :
    line.Holds ⟨path, token.start, token.stop⟩ := by
  have parts := line.length_chars
  have whole (within : token.start.line = line.number ∧
      line.first.column ≤ token.start.column ∧ 1 ≤ token.lexeme.length ∧
      token.start.column + token.lexeme.length ≤ line.first.column + line.visible.length) :
      line.Holds ⟨path, token.start, token.stop⟩ := by
    obtain ⟨same, start, shown, stop⟩ := within
    simp only [first] at start stop
    constructor
    · exact same
    · exact same
    · change 1 ≤ token.start.column
      omega
    · change token.start.column < token.start.column + token.lexeme.length
      omega
    · change token.start.column + token.lexeme.length ≤ line.chars.length + 1
      omega
  cases ignored : line.isIgnored with
  | true =>
    rw [tokens_of_ignored ignored] at member
    cases member
  | false =>
    cases quoted : line.isQuoted with
    | false =>
      rw [tokens_of_unquoted ignored quoted, body, quoted] at member
      exact whole (Token.lies_ofStretch _ _ token member)
    | true =>
      obtain ⟨c, rest, shown, -⟩ := exists_visible ignored
      have size : line.visible.length = rest.length + 1 := by rw [shown, List.length_cons]
      rw [tokens_of_quoted ignored quoted, body, quoted, if_pos rfl, shown] at member
      apply whole
      rw [size]
      rcases List.mem_cons.mp member with rfl | behind
      · have mark : "'".length = 1 := rfl
        simp only [mark]
        exact ⟨rfl, Nat.le_refl _, Nat.le_refl _, by omega⟩
      · obtain ⟨same, start, shown, stop⟩ := Token.lies_ofStretch _ _ token behind
        simp only [Position.right, List.tail_cons] at same start stop
        refine ⟨same, ?_, shown, ?_⟩ <;> omega

variable {path source : String}

/-- The reports are those of the malformed lines, in line order. -/
theorem forall₂_reportedBy {rows : List TextLine}
    {outcomes : List (Except MalformedLine Instruction)}
    (judged : List.Forall₂ (TextLine.Judges path) rows outcomes) :
    List.Forall₂ (TextLine.ReportedBy path) (rows.filter fun line => ¬ line.Grammatical)
      (reports path outcomes) := by
  have faulty : (rows.filter fun line => ¬ line.Grammatical) =
      rows.filter fun line => line.fault?.isSome := by
    refine List.filter_congr fun line _ => ?_
    simp only [← TextLine.fault?_eq_none_iff]
    cases line.fault? <;> simp
  rw [faulty]
  refine (forall₂_reports judged).imp ?_
  rintro line report ⟨malformed, fault, token, rfl⟩
  -- the report is placed at a token, and the tokens of a line lie on it
  refine ⟨rfl, rfl, ?_, _, rfl, rfl, TextLine.holds_of_mem_tokens token path⟩
  rw [TextLine.complaint?_eq, fault]
  rfl

/-- Reading a text with malformed lines fails with one report for each of them, in line order, and
with no other. The report names the first fault that applies and lies on the line. -/
theorem reportedBy_of_malformed (lexed : ∃ tokens, Token.ofText source = .ok tokens)
    (faulty : TextLine.malformed source ≠ []) (path : String) :
    ∃ reports, parse path source = .error (.diagnostics .parser reports) ∧
      reports.length = (TextLine.malformed source).length ∧
      List.Forall₂ (TextLine.ReportedBy path) (TextLine.malformed source) reports := by
  obtain ⟨tokens, lexed⟩ := lexed
  obtain ⟨outcomes, judged, read⟩ := exists_parse lexed path
  have each := forall₂_reportedBy judged
  refine ⟨reports path outcomes, ?_, each.length_eq.symm, each⟩
  rw [read, if_neg]
  intro empty
  rw [List.isEmpty_iff.mp empty, List.forall₂_nil_right_iff] at each
  exact faulty each

/-- All faults, with a comment, a blank line and a good line between them; the last line is that of
an extension and has no newline. -/
def careless : String :=
  "# faults\nADD D * 0011 000d 0000\nNOP 0000 0000 0000 0000\n\n* 0000 0000 0000 0000\n" ++
    "A * 0000 * 0000 * 0000\nNOP * 0000 0000 0000 0000\nB * 0000 0000 0000 0002\n" ++
    "'X * xxxx xxxx 0001"

theorem reportedBy_careless :
    (∃ tokens, Token.ofText careless = .ok tokens) ∧ TextLine.malformed careless ≠ [] ∧
      (TextLine.malformed careless).map (fun line => (line.number, line.complaint?)) =
        [(2, some "parser.pattern-width"), (3, some "parser.missing-separator"),
          (5, some "parser.missing-opcode"), (6, some "parser.extra-separator"),
          (8, some "parser.pattern-digit"), (9, some "parser.pattern-width")] ∧
      ∃ reports, parse "careless" careless = .error (.diagnostics .parser reports) ∧
        reports.length = 6 ∧
        List.Forall₂ (TextLine.ReportedBy "careless") (TextLine.malformed careless) reports := by
  have lexed : ∃ tokens, Token.ofText careless = .ok tokens := exists_ofText (by decide +kernel)
  have listed : (TextLine.malformed careless).map (fun line => (line.number, line.complaint?)) =
      [(2, some "parser.pattern-width"), (3, some "parser.missing-separator"),
        (5, some "parser.missing-opcode"), (6, some "parser.extra-separator"),
        (8, some "parser.pattern-digit"), (9, some "parser.pattern-width")] := by decide +kernel
  have faulty : TextLine.malformed careless ≠ [] := by
    intro none
    rw [none] at listed
    cases listed
  obtain ⟨reports, failed, size, each⟩ := reportedBy_of_malformed lexed faulty "careless"
  refine ⟨lexed, faulty, listed, reports, failed, ?_, each⟩
  have lines := congrArg List.length listed
  rw [List.length_map] at lines
  exact size.trans lines

end Spec

end DspIsa
