import DspIsa.Proofs.ControlCharacters
import DspIsa.Proofs.MalformedLines
import DspIsa.Spec.Draft
import Mathlib.Data.List.TakeWhile

/-! Specs written line by line. Each line of a draft is a line of its text, and reading the text
gives back what was written: one record for each instruction and each extension, or one report for
each pattern that cannot be read. -/
namespace DspIsa

namespace Spec

namespace TextLine

variable {c : Char}

/-- A blank splits groups. -/
theorem groups_append_blank (blank : Text.isBlank c = true) (front rest : List Char) :
    groups (front ++ c :: rest) = groups front ++ groups rest := by
  rw [groups, List.splitOnP_append_cons front rest blank, List.filter_append, List.map_append]
  rfl

/-- Blanks in front make no difference to the groups. -/
theorem groups_dropWhile (chars : List Char) :
    groups (chars.dropWhile Text.isBlank) = groups chars := by
  induction chars with
  | nil => rfl
  | cons c rest ih =>
    cases blank : Text.isBlank c with
    | true => rw [List.dropWhile_cons_of_pos blank, ih, groups_blank blank]
    | false => rw [List.dropWhile_cons_of_neg (by simp [blank])]

/-- The groups in one piece are the text without its blanks. -/
theorem toList_join_groups (chars : List Char) :
    (String.join (groups chars)).toList = chars.filter fun c => !Text.isBlank c := by
  rw [String.toList_join, groups, List.flatMap_map]
  simp only [String.toList_ofList, List.flatMap_id']
  rw [List.flatten_filter_not_isEmpty]
  induction chars with
  | nil => rfl
  | cons c rest ih =>
    rw [List.splitOnP_cons_eq_if_modifyHead, List.filter_cons]
    cases blank : Text.isBlank c with
    | true => simpa using ih
    | false =>
      obtain ⟨first, others, split⟩ := List.exists_cons_of_ne_nil
        (List.splitOnP_ne_nil Text.isBlank rest)
      rw [split, List.flatten_cons] at ih
      simp [split, ih]

/-- Reading a pattern only looks at what is not blank. -/
theorem scan_join_groups (kind : PatternKind) (text : String) :
    BitPattern.scan kind (String.join (groups text.toList)) = BitPattern.scan kind text := by
  rw [BitPattern.scan, BitPattern.scan, toList_join_groups, List.filter_filter]
  simp only [Bool.and_self]

end TextLine

namespace Draft

/-- The lines of a draft, counted from one. -/
def rows (draft : Draft) : List TextLine :=
  (draft.lines.zipIdx 1).map fun pair => ⟨pair.2, pair.1.toList⟩

/-- The text of a draft has its lines, and behind them nothing but empty ones. -/
theorem ofText_source {draft : Draft} (unbroken : ∀ line ∈ draft.lines, '\n' ∉ line.toList) :
    ∃ empty, (∀ row ∈ empty, row.chars = []) ∧
      TextLine.ofText draft.source = draft.rows ++ empty := by
  -- the newline behind the last line opens one more; without lines, it has one in front as well
  by_cases none : draft.lines = []
  · have rows : draft.rows = [] := by rw [Draft.rows, none]; rfl
    have source : draft.source = "\n" := by rw [Draft.source, none]; rfl
    exact ⟨[⟨1, []⟩, ⟨2, []⟩], by simp, by rw [rows, source]; decide⟩
  · have source : draft.source = "\n".intercalate (draft.lines ++ [""]) := by
      rw [String.intercalate_append_of_ne_nil none (by simp), String.intercalate_singleton,
        String.append_empty, Draft.source]
    have apart : ∀ chars ∈ (draft.lines ++ [""]).map String.toList, '\n' ∉ chars := by
      simpa [or_imp, forall_and] using unbroken
    have split : draft.source.toList.splitOnP (· == '\n') =
        (draft.lines ++ [""]).map String.toList := by
      rw [source, String.toList_intercalate, ← List.splitOn_eq_splitOnP]
      exact List.splitOn_intercalate '\n' apart (by simp)
    refine ⟨[⟨1 + draft.lines.length, []⟩], by simp, ?_⟩
    rw [TextLine.ofText, TextLine.numbered, split, List.map_append, List.zipIdx_append,
      List.map_append, Draft.rows, List.zipIdx_map, List.map_map, List.length_map]
    rfl

/-- What may stand in front of and behind the star of a line: an opcode that is not blank, and no
newline, star or control character in either text, other than white space. In front of the opcode
of an instruction, nothing opens a comment or an extension. -/
@[mk_iff]
structure Fits (kind : PatternKind) (opcode pattern : String) : Prop where
  plain : ∀ c ∈ opcode.toList ++ pattern.toList,
    c ≠ '\n' ∧ c ≠ '*' ∧ (Text.isControl c = true → Text.isBlank c = true)
  named : ∃ c ∈ opcode.toList, Text.isBlank c = false
  unmarked : kind = .main →
    ∀ c ∈ (opcode.toList.dropWhile Text.isBlank).head?, c ≠ '#' ∧ c ≠ '\''

instance (kind : PatternKind) (opcode pattern : String) : Decidable (Fits kind opcode pattern) :=
  decidable_of_iff
    (((opcode.toList ++ pattern.toList).all fun c =>
        c != '\n' && c != '*' && (!Text.isControl c || Text.isBlank c)) = true ∧
      (opcode.toList.any fun c => !Text.isBlank c) = true ∧
      (kind = .main →
        ((opcode.toList.dropWhile Text.isBlank).head?.all fun c => c != '#' && c != '\'') = true))
    (by
      rw [fits_iff, List.all_eq_true, List.any_eq_true, Option.all_eq_true]
      simp only [Bool.and_eq_true, bne_iff_ne, ne_eq, Bool.or_eq_true, Bool.not_eq_true',
        ← Bool.not_eq_true, ← imp_iff_not_or, and_assoc, Option.mem_def])

/-- A call that writes one line. -/
inductive Call where
  | comment (text : String)
  | instruction (opcode pattern : String)
  | extension (opcode pattern : String)
  deriving DecidableEq, Repr

namespace Call

def write (draft : Draft) : Call → Draft
  | .comment text => draft.comment text
  | .instruction opcode pattern => draft.instruction opcode pattern
  | .extension opcode pattern => draft.extension opcode pattern

def line : Call → String
  | .comment text => "# " ++ text
  | .instruction opcode pattern => opcode ++ " * " ++ pattern
  | .extension opcode pattern => "'" ++ opcode ++ " * xxxx xxxx " ++ pattern

theorem write_eq (draft : Draft) (call : Call) : call.write draft = draft.addLine call.line := by
  cases call <;> rfl

end Call

/-- What was written on a line that is no comment, and the number of the line. -/
structure Entry where
  number : Nat
  kind : PatternKind
  opcode : String
  pattern : String
  deriving DecidableEq, Repr

namespace Entry

def text (entry : Entry) : String :=
  match entry.kind with
  | .main => (Call.instruction entry.opcode entry.pattern).line
  | .extension => (Call.extension entry.opcode entry.pattern).line

def row (entry : Entry) : TextLine := ⟨entry.number, entry.text.toList⟩

/-- The groups of the opcode. -/
def groups (entry : Entry) : List String := TextLine.groups entry.opcode.toList

/-- What the pattern is read to. -/
def scanned (entry : Entry) : Except PatternFault BitPattern :=
  BitPattern.scan entry.kind entry.pattern

/-- The record of a line, with everything that was written on it. -/
structure Recorded (path : String) (entry : Entry) (instr : Instruction) : Prop where
  name : instr.name = "_".intercalate entry.groups
  mnemonic : entry.groups.head? = some instr.mnemonic
  pattern : entry.scanned = .ok ⟨instr.width, instr.fixedMask, instr.fixedValue, instr.operands⟩
  path : instr.span.path = path
  line : instr.span.start.line = entry.number

/-- The report of a line, which says what is wrong with its pattern. -/
structure Reported (path : String) (entry : Entry) (report : Diagnostic) : Prop where
  phase : report.phase = .parser
  severity : report.severity = .error
  fault : ∃ fault, entry.scanned = .error fault ∧
    report.code = (LineFault.pattern fault).code ∧ report.message = fault.message
  span : ∃ span, report.span = some span ∧ span.path = path ∧ span.start.line = entry.number

/-- What is behind the star. -/
def behind (entry : Entry) : List Char :=
  match entry.kind with
  | .main => ' ' :: entry.pattern.toList
  | .extension => " xxxx xxxx ".toList ++ entry.pattern.toList

theorem groups_behind (entry : Entry) :
    (TextLine.groups entry.behind).drop (LineParts.skipped entry.kind) =
      TextLine.groups entry.pattern.toList := by
  unfold behind
  cases entry.kind with
  | main => exact TextLine.groups_blank (by decide)
  | extension =>
    have filler : " xxxx xxxx ".toList ++ entry.pattern.toList =
        " xxxx xxxx".toList ++ ' ' :: entry.pattern.toList := rfl
    have filled : TextLine.groups " xxxx xxxx".toList = ["xxxx", "xxxx"] := by decide
    dsimp only
    rw [filler, TextLine.groups_append_blank (by decide), filled]
    rfl

theorem isOk_scanned (entry : Entry) :
    entry.scanned.isOk = true ↔ ∃ pattern, entry.scanned = .ok pattern := by
  cases entry.scanned <;> simp [Except.isOk, Except.toBool]

variable {entry : Entry} (fits : Fits entry.kind entry.opcode entry.pattern)

include fits

theorem starless : '*' ∉ entry.opcode.toList ∧ '*' ∉ entry.behind := by
  have free (star : '*' ∈ entry.opcode.toList ++ entry.pattern.toList) : False :=
    (fits.plain '*' star).2.1 rfl
  refine ⟨fun member => free (List.mem_append_left _ member), fun member => ?_⟩
  unfold behind at member
  split at member
  · rcases List.mem_cons.mp member with blank | later
    · exact absurd blank (by decide)
    · exact free (List.mem_append_right _ later)
  · rcases List.mem_append.mp member with filler | later
    · exact absurd filler (by decide)
    · exact free (List.mem_append_right _ later)

/-- The visible part of the line of an instruction begins with its opcode. -/
theorem row_of_main (main : entry.kind = .main) :
    entry.row.isIgnored = false ∧ entry.row.isQuoted = false ∧
      entry.row.body =
        entry.opcode.toList.dropWhile Text.isBlank ++ ' ' :: '*' :: entry.behind := by
  have chars : entry.row.chars = entry.opcode.toList ++ ' ' :: '*' :: entry.behind := by
    simp [row, text, Call.line, behind, main]
  cases opens : entry.opcode.toList.dropWhile Text.isBlank with
  | nil =>
    obtain ⟨c, member, solid⟩ := fits.named
    rw [List.dropWhile_eq_nil_iff.mp opens c member] at solid
    cases solid
  | cons c rest =>
    obtain ⟨uncommented, unquoted⟩ := fits.unmarked main c (by simp [opens])
    have visible : entry.row.visible = c :: rest ++ ' ' :: '*' :: entry.behind := by
      rw [TextLine.visible, chars, List.dropWhile_append, opens]
      rfl
    refine ⟨?_, ?_, ?_⟩
    · simpa [TextLine.isIgnored, visible] using uncommented
    · simpa [TextLine.isQuoted, visible] using unquoted
    · simpa [TextLine.body, TextLine.isQuoted, visible] using fun same => absurd same unquoted

omit fits in
/-- The line of an extension begins with its quote mark. -/
theorem row_of_extension (extension : entry.kind = .extension) :
    entry.row.isIgnored = false ∧ entry.row.isQuoted = true ∧
      entry.row.body = entry.opcode.toList ++ ' ' :: '*' :: entry.behind := by
  have chars : entry.row.chars = '\'' :: (entry.opcode.toList ++ ' ' :: '*' :: entry.behind) := by
    simp [row, text, Call.line, behind, extension]
  have visible : entry.row.visible = entry.row.chars := by
    rw [TextLine.visible, chars]
    exact List.dropWhile_cons_of_neg (by decide)
  refine ⟨?_, ?_, ?_⟩
  · simp [TextLine.isIgnored, visible, chars]
  · simp [TextLine.isQuoted, visible, chars]
  · simp [TextLine.body, TextLine.isQuoted, visible, chars]

theorem isIgnored_row : entry.row.isIgnored = false := by
  cases kind : entry.kind with
  | main => exact (row_of_main fits kind).1
  | extension => exact (row_of_extension kind).1

theorem isQuoted_row : entry.row.isQuoted = (entry.kind == .extension) := by
  cases kind : entry.kind with
  | main => exact (row_of_main fits kind).2.1
  | extension => exact (row_of_extension kind).2.1

theorem kind_row : entry.row.kind = entry.kind := by
  rw [TextLine.kind, isQuoted_row fits]
  cases entry.kind <;> rfl

/-- Behind the quote mark, if there is one, the groups of the opcode stand in front of the star. -/
theorem exists_body_row :
    ∃ front, entry.row.body = front ++ '*' :: entry.behind ∧ '*' ∉ front ∧
      TextLine.groups front = entry.groups := by
  have groups_front (opcode : List Char) :
      TextLine.groups (opcode ++ [' ']) = TextLine.groups opcode := by
    rw [TextLine.groups_append_blank (by decide), TextLine.groups_nil, List.append_nil]
  cases kind : entry.kind with
  | main =>
    have body := (row_of_main fits kind).2.2
    refine ⟨entry.opcode.toList.dropWhile Text.isBlank ++ [' '], by simp [body], ?_, ?_⟩
    · have inside : '*' ∉ entry.opcode.toList.dropWhile Text.isBlank := fun member =>
        (starless fits).1 ((List.dropWhile_sublist _).subset member)
      simpa using inside
    · rw [groups_front, TextLine.groups_dropWhile, groups]
  | extension =>
    have body := (row_of_extension kind).2.2
    refine ⟨entry.opcode.toList ++ [' '], by simp [body], ?_, ?_⟩
    · simpa using (starless fits).1
    · rw [groups_front, groups]

/-- Reading the line takes from it what was written. -/
theorem read_row :
    entry.row.body.count '*' = 1 ∧ entry.row.opcode = entry.groups ∧
      BitPattern.scan entry.row.kind entry.row.pattern = entry.scanned := by
  obtain ⟨front, body, plain, groups⟩ := exists_body_row fits
  have behind : entry.row.behind = TextLine.groups entry.behind := by
    rw [TextLine.behind, body, TextLine.dropWhile_star plain, List.tail_cons]
  have skipped : (if entry.row.isQuoted then entry.row.behind.drop 2 else entry.row.behind) =
      entry.row.behind.drop (LineParts.skipped entry.row.kind) := by
    rw [TextLine.kind]
    split <;> rfl
  refine ⟨?_, ?_, ?_⟩
  · rw [body, List.count_append, List.count_cons_self, List.count_eq_zero.mpr plain,
      List.count_eq_zero.mpr (starless fits).2]
  · rw [TextLine.opcode, body, TextLine.takeWhile_star plain, groups]
  · rw [TextLine.pattern, skipped, behind, kind_row fits, groups_behind,
      TextLine.scan_join_groups, scanned]

theorem groups_ne_nil : entry.groups ≠ [] := by
  obtain ⟨c, member, solid⟩ := fits.named
  intro none
  rw [TextLine.groups_eq_nil_iff.mp none c member] at solid
  cases solid

/-- Nothing but the pattern can be wrong with the line. -/
theorem fault?_row :
    entry.row.fault? =
      match entry.scanned with
      | .error fault => some (.pattern fault)
      | .ok _ => none := by
  obtain ⟨count, opcode, pattern⟩ := read_row fits
  rw [TextLine.fault?, count, opcode, pattern]
  exact if_neg (groups_ne_nil fits)

theorem recorded_of_records {path : String} {instr : Instruction}
    (records : entry.row.Records path instr) : entry.Recorded path instr := by
  obtain ⟨-, opcode, pattern⟩ := read_row fits
  obtain ⟨name, mnemonic, scanned, span⟩ := records
  rw [opcode] at name mnemonic
  rw [pattern] at scanned
  exact ⟨name, mnemonic, scanned, by rw [span]; rfl, by rw [span]; rfl⟩

/-- The line is not broken, and nothing on it is refused. -/
theorem plain_text : ∀ c ∈ entry.text.toList, c ≠ '\n' ∧ isRefused c = false := by
  have written : ∀ c ∈ entry.opcode.toList ++ entry.pattern.toList,
      c ≠ '\n' ∧ isRefused c = false := by
    intro c member
    obtain ⟨unbroken, -, control⟩ := fits.plain c member
    refine ⟨unbroken, ?_⟩
    cases shown : Text.isControl c with
    | true => exact isRefused_eq_false_of_isBlank (control shown)
    | false => simp [isRefused, isForbidden, shown]
  obtain ⟨opcode, pattern⟩ := List.forall_mem_append.mp written
  have mark (text : String)
      (plain : (text.toList.all fun c => c != '\n' && !isRefused c) = true) :
      ∀ c ∈ text.toList, c ≠ '\n' ∧ isRefused c = false := by
    simpa using plain
  unfold text Call.line
  split <;> simp only [String.toList_append, List.forall_mem_append]
  · exact ⟨⟨opcode, mark " * " (by decide)⟩, pattern⟩
  · exact ⟨⟨⟨mark "'" (by decide), opcode⟩, mark " * xxxx xxxx " (by decide)⟩, pattern⟩

theorem reported {path : String} {malformed : MalformedLine}
    (fault : entry.row.fault? = some malformed.fault) (token : malformed.token ∈ entry.row.tokens) :
    entry.Reported path (malformed.report path) := by
  rw [fault?_row fits] at fault
  cases scanned : entry.scanned with
  | ok pattern => simp [scanned] at fault
  | error found =>
    rw [scanned] at fault
    have same : LineFault.pattern found = malformed.fault := Option.some.inj fault
    have line := (TextLine.holds_of_mem_tokens token path).start
    refine ⟨rfl, rfl, ⟨found, scanned, ?_, ?_⟩, _, rfl, rfl, line⟩
    · rw [same]
      rfl
    · exact (congrArg LineFault.message same).symm

end Entry

namespace Call

/-- What the call writes, if it is no comment. -/
def written? (number : Nat) : Call → Option Entry
  | .comment _ => none
  | .instruction opcode pattern => some ⟨number, .main, opcode, pattern⟩
  | .extension opcode pattern => some ⟨number, .extension, opcode, pattern⟩

def Fits : Call → Prop
  | .comment text => '\n' ∉ text.toList
  | .instruction opcode pattern => Draft.Fits .main opcode pattern
  | .extension opcode pattern => Draft.Fits .extension opcode pattern

instance (call : Call) : Decidable call.Fits :=
  match call with
  | .comment text => inferInstanceAs (Decidable ('\n' ∉ text.toList))
  | .instruction opcode pattern => inferInstanceAs (Decidable (Draft.Fits .main opcode pattern))
  | .extension opcode pattern => inferInstanceAs (Decidable (Draft.Fits .extension opcode pattern))

variable {call : Call} {number : Nat}

/-- What a call writes is the line with its number. -/
theorem row_of_written? {entry : Entry} (written : call.written? number = some entry) :
    entry.row = ⟨number, call.line.toList⟩ := by
  cases call <;> cases written <;> rfl

theorem fits_of_written? {entry : Entry} (fits : call.Fits)
    (written : call.written? number = some entry) :
    Draft.Fits entry.kind entry.opcode entry.pattern := by
  cases call <;> cases written <;> exact fits

theorem visible_comment (text : String) :
    TextLine.visible ⟨number, (line (.comment text)).toList⟩ = '#' :: ' ' :: text.toList := by
  have chars : (line (.comment text)).toList = '#' :: ' ' :: text.toList := by simp [line]
  rw [TextLine.visible, chars]
  exact List.dropWhile_cons_of_neg (by decide)

/-- Only a comment writes nothing, and its line is passed over. -/
theorem comment_of_written? (none : call.written? number = none) :
    TextLine.isComment ⟨number, call.line.toList⟩ = true ∧
      TextLine.isIgnored ⟨number, call.line.toList⟩ = true := by
  cases call with
  | comment text => simp [TextLine.isComment, TextLine.isIgnored, visible_comment]
  | instruction opcode pattern => cases none
  | extension opcode pattern => cases none

theorem unbroken_line (fits : call.Fits) : '\n' ∉ call.line.toList := by
  cases written : call.written? 0 with
  | some entry =>
    have line : entry.text.toList = call.line.toList :=
      congrArg TextLine.chars (row_of_written? written)
    intro newline
    exact (Entry.plain_text (fits_of_written? fits written) '\n' (line ▸ newline)).1 rfl
  | none =>
    cases call with
    | comment text =>
      have free : '\n' ∉ text.toList := fits
      simpa [line] using free
    | instruction opcode pattern => cases written
    | extension opcode pattern => cases written

end Call

/-- The draft that some calls write, one after the other. -/
def ofCalls (path : String) (calls : List Call) : Draft := calls.foldl Call.write (.empty path)

/-- What calls write apart from comments; calls count from one. -/
def entries (calls : List Call) : List Entry :=
  (calls.zipIdx 1).filterMap fun pair => pair.1.written? pair.2

theorem foldl_write (draft : Draft) (calls : List Call) :
    calls.foldl Call.write draft = ⟨draft.path, draft.lines ++ calls.map Call.line⟩ := by
  induction calls generalizing draft with
  | nil => simp
  | cons call calls ih =>
    rw [List.foldl_cons, ih, Call.write_eq, addLine]
    simp

/-- Each call writes one line. -/
theorem ofCalls_eq (path : String) (calls : List Call) :
    ofCalls path calls = ⟨path, calls.map Call.line⟩ := by
  rw [ofCalls, foldl_write]
  rfl

theorem rows_ofCalls (path : String) (calls : List Call) :
    (ofCalls path calls).rows =
      (calls.zipIdx 1).map fun pair => ⟨pair.2, pair.1.line.toList⟩ := by
  rw [ofCalls_eq, rows, List.zipIdx_map, List.map_map]
  rfl

section Build

variable {calls : List Call} (fits : ∀ call ∈ calls, call.Fits) (path : String)

include fits

theorem fits_of_mem_entries {entry : Entry} (member : entry ∈ entries calls) :
    Fits entry.kind entry.opcode entry.pattern := by
  obtain ⟨pair, listed, written⟩ := List.mem_filterMap.mp member
  exact Call.fits_of_written? (fits _ (List.fst_mem_of_mem_zipIdx listed)) written

theorem exists_ofText_ofCalls :
    ∃ empty, (∀ row ∈ empty, row.chars = []) ∧
      TextLine.ofText (ofCalls path calls).source = (ofCalls path calls).rows ++ empty := by
  refine ofText_source ?_
  rw [ofCalls_eq]
  exact List.forall_mem_map.mpr fun call member => Call.unbroken_line (fits call member)

/-- The lines to be read are those of the calls that are no comments. -/
theorem remaining_ofCalls :
    TextLine.remaining (ofCalls path calls).source = (entries calls).map Entry.row := by
  obtain ⟨empty, blank, split⟩ := exists_ofText_ofCalls fits path
  have passed : empty.filter (fun line => !line.isIgnored) = [] :=
    List.filter_eq_nil_iff.mpr fun row member => by
      simp [TextLine.isIgnored, TextLine.visible, blank row member]
  rw [TextLine.remaining, split, List.filter_append, passed, List.append_nil, rows_ofCalls,
    entries, List.map_filterMap, List.filter_map, ← List.filterMap_eq_map,
    ← List.filterMap_eq_filter, List.filterMap_filterMap]
  -- both sides go over the calls; what is left is whether a call's line is passed over
  refine List.filterMap_congr fun pair member => ?_
  have fitting := fits _ (List.fst_mem_of_mem_zipIdx member)
  cases written : pair.1.written? pair.2 with
  | none => simp [Option.guard, (Call.comment_of_written? written).2]
  | some entry =>
    have kept := Entry.isIgnored_row (Call.fits_of_written? fitting written)
    rw [Call.row_of_written? written] at kept
    simp [Option.guard, kept, Call.row_of_written? written]

/-- No character of the text is refused. -/
theorem lexed_ofCalls : ∃ tokens, Token.ofText (ofCalls path calls).source = .ok tokens := by
  obtain ⟨empty, blank, split⟩ := exists_ofText_ofCalls fits path
  rw [exists_ofText_eq_ok_iff, outside, split, rows_ofCalls, List.flatMap_eq_nil_iff]
  intro row member
  rcases List.mem_append.mp member with listed | behind
  · obtain ⟨pair, called, rfl⟩ := List.mem_map.mp listed
    rw [TextLine.among_outside]
    cases written : pair.1.written? pair.2 with
    | none => exact if_pos (Call.comment_of_written? written).1
    | some entry =>
      have fitting := Call.fits_of_written? (fits _ (List.fst_mem_of_mem_zipIdx called)) written
      split
      · rfl
      · rw [← Call.row_of_written? written]
        refine ControlCharacter.among_eq_nil fun c member => ?_
        exact (Entry.plain_text fitting c ((List.dropWhile_sublist _).subset member)).2
  · simp [TextLine.outside, blank row behind]

/-- A line is reported exactly if its pattern cannot be read. -/
theorem forall₂_reported {outcomes : List (Except MalformedLine Instruction)}
    (judged : List.Forall₂ (TextLine.Judges path) ((entries calls).map Entry.row) outcomes) :
    List.Forall₂ (Entry.Reported path)
      ((entries calls).filter fun entry => !entry.scanned.isOk) (reports path outcomes) := by
  have refused : ((entries calls).map Entry.row).filter (fun line => line.fault?.isSome) =
      ((entries calls).filter fun entry => !entry.scanned.isOk).map Entry.row := by
    rw [List.filter_map]
    congr 1
    refine List.filter_congr fun entry member => ?_
    simp only [Function.comp_apply, Entry.fault?_row (fits_of_mem_entries fits member)]
    cases entry.scanned <;> rfl
  have each := forall₂_reports judged
  rw [refused, List.forall₂_map_left_iff] at each
  have fitting (entry : Entry) (member : entry ∈ (entries calls).filter fun entry =>
      !entry.scanned.isOk) : Fits entry.kind entry.opcode entry.pattern :=
    fits_of_mem_entries fits (List.mem_of_mem_filter member)
  refine ((List.forall₂_and_left _ _).mpr ⟨fitting, each⟩).imp ?_
  rintro entry report ⟨fitting, malformed, fault, token, rfl⟩
  exact Entry.reported fitting fault token

/-- Of the records, those of one kind are those of the lines of that kind. -/
theorem forall₂_recorded {records : List Instruction}
    (judged : List.Forall₂ (TextLine.Records path) ((entries calls).map Entry.row) records) :
    List.Forall₂ (Entry.Recorded path) ((entries calls).filter fun entry => entry.kind == .main)
        (records.filter fun instr => !instr.isExtension) ∧
      List.Forall₂ (Entry.Recorded path)
        ((entries calls).filter fun entry => entry.kind == .extension)
        (records.filter fun instr => instr.isExtension) := by
  rw [List.forall₂_map_left_iff] at judged
  have each : List.Forall₂ (fun entry instr => Entry.Recorded path entry instr ∧
      instr.isExtension = (entry.kind == .extension)) (entries calls) records := by
    have fitting (entry : Entry) (member : entry ∈ entries calls) :=
      fits_of_mem_entries fits member
    refine ((List.forall₂_and_left _ _).mpr ⟨fitting, judged⟩).imp ?_
    rintro entry instr ⟨fitting, recorded⟩
    refine ⟨Entry.recorded_of_records fitting recorded, ?_⟩
    rw [TextLine.isExtension_of_records recorded, Entry.isQuoted_row fitting]
  constructor
  · refine (List.rel_filter (fun entry instr related => ?_) each).imp fun _ _ related => related.1
    simp only [related.2]
    cases entry.kind <;> decide
  · refine (List.rel_filter (fun entry instr related => ?_) each).imp fun _ _ related => related.1
    simp only [related.2]

/-- Calls and records correspond one to one. A draft of lines that fit is read exactly if all its
patterns are, and then to one record for each call that is no comment, in call order, with what the
call was given. Otherwise each pattern that cannot be read is reported once, and nothing else. -/
theorem build_ofCalls :
    ((∃ doc, (ofCalls path calls).build = .ok doc) ↔
        ∀ entry ∈ entries calls, ∃ pattern, entry.scanned = .ok pattern) ∧
      (∀ doc, (ofCalls path calls).build = .ok doc →
        List.Forall₂ (Entry.Recorded path)
          ((entries calls).filter fun entry => entry.kind == .main) doc.instructions ∧
        List.Forall₂ (Entry.Recorded path)
          ((entries calls).filter fun entry => entry.kind == .extension) doc.extensions) ∧
      ∀ failure, (ofCalls path calls).build = .error failure →
        ∃ reports, failure = .diagnostics .parser reports ∧
          List.Forall₂ (Entry.Reported path)
            ((entries calls).filter fun entry => !entry.scanned.isOk) reports := by
  obtain ⟨tokens, lexed⟩ := lexed_ofCalls fits path
  obtain ⟨outcomes, judged, read⟩ := exists_parse lexed path
  rw [remaining_ofCalls fits path] at judged
  have built : (ofCalls path calls).build = parse path (ofCalls path calls).source := by
    rw [build, ofCalls_eq]
  have reported := forall₂_reported fits path judged
  have silent : reports path outcomes = [] ↔
      ∀ entry ∈ entries calls, ∃ pattern, entry.scanned = .ok pattern := by
    -- there are as many reports as patterns that cannot be read
    rw [← List.length_eq_zero_iff, ← reported.length_eq, List.length_eq_zero_iff,
      List.filter_eq_nil_iff]
    refine forall₂_congr fun entry _ => ?_
    rw [Bool.not_eq_true', Bool.not_eq_false, Entry.isOk_scanned]
  rw [built, read, ← silent]
  by_cases none : reports path outcomes = []
  · rw [if_pos (List.isEmpty_iff.mpr none)]
    refine ⟨⟨fun _ => none, fun _ => ⟨_, rfl⟩⟩, fun doc accepted => ?_, nofun⟩
    cases accepted
    exact forall₂_recorded fits path (forall₂_records judged none)
  · rw [if_neg fun empty => none (List.isEmpty_iff.mp empty)]
    refine ⟨by simp [none], nofun, fun failure failed => ?_⟩
    cases failed
    exact ⟨_, rfl, reported⟩

end Build

/-- A comment with a star and a control character, an opcode with blanks around its groups, an
extension whose opcode looks like a comment, and a pattern that is split by a tab. -/
def sketch : List Call := [
  .comment "moves *\x01",
  .instruction " MRR\t D " "000111dd dddd dddd",
  .extension "#LD" "01rr\tr0ss",
  .instruction "NOP" "0000 0000 0000 0000"]

/-- The same lines between two whose patterns cannot be read. -/
def spoiled : List Call :=
  .extension "LD" "01rr r0s" :: sketch ++ [.instruction "NOP 'x" "0000 0000 0000 0002"]

theorem build_ofCalls_sketch :
    (∀ call ∈ sketch, call.Fits) ∧ (∀ call ∈ spoiled, call.Fits) ∧
      (∃ doc, (ofCalls "sketch" sketch).build = .ok doc ∧
        doc.instructions.map (·.name) = ["MRR_D", "NOP"] ∧
        doc.instructions.map (·.span.start.line) = [2, 4] ∧
        List.Forall₂ (Entry.Recorded "sketch") [⟨3, .extension, "#LD", "01rr\tr0ss"⟩]
          doc.extensions) ∧
      ∃ reports, (ofCalls "spoiled" spoiled).build = .error (.diagnostics .parser reports) ∧
        List.Forall₂ (Entry.Reported "spoiled") [⟨1, .extension, "LD", "01rr r0s"⟩,
          ⟨6, .main, "NOP 'x", "0000 0000 0000 0002"⟩] reports := by
  have fitting : ∀ call ∈ sketch, call.Fits := by decide +kernel
  have spoiledFits : ∀ call ∈ spoiled, call.Fits := by decide +kernel
  have main : ((entries sketch).filter fun entry => entry.kind == .main) =
      [⟨2, .main, " MRR\t D ", "000111dd dddd dddd"⟩,
        ⟨4, .main, "NOP", "0000 0000 0000 0000"⟩] := by decide +kernel
  have extensions : ((entries sketch).filter fun entry => entry.kind == .extension) =
      [⟨3, .extension, "#LD", "01rr\tr0ss"⟩] := by decide +kernel
  have readable : ∀ entry ∈ entries sketch, entry.scanned.isOk = true := by decide +kernel
  have refused : ((entries spoiled).filter fun entry => !entry.scanned.isOk) =
      [⟨1, .extension, "LD", "01rr r0s"⟩, ⟨6, .main, "NOP 'x", "0000 0000 0000 0002"⟩] := by
    decide +kernel
  refine ⟨fitting, spoiledFits, ?_, ?_⟩
  · obtain ⟨accepts, records, -⟩ := build_ofCalls fitting "sketch"
    obtain ⟨doc, built⟩ := accepts.mpr fun entry member =>
      entry.isOk_scanned.mp (readable entry member)
    obtain ⟨instructions, later⟩ := records doc built
    rw [main] at instructions
    rw [extensions] at later
    refine ⟨doc, built, ?_, ?_, later⟩
    all_goals generalize doc.instructions = records at instructions
    · rcases instructions with _ | ⟨first, _ | ⟨second, ⟨⟩⟩⟩
      simp only [List.map_cons, first.name, second.name]
      decide
    · rcases instructions with _ | ⟨first, _ | ⟨second, ⟨⟩⟩⟩
      simp [first.line, second.line]
  · obtain ⟨accepts, -, fails⟩ := build_ofCalls spoiledFits "spoiled"
    rw [refused] at fails
    cases built : (ofCalls "spoiled" spoiled).build with
    | ok doc =>
      have listed : ⟨1, .extension, "LD", "01rr r0s"⟩ ∈ entries spoiled := by decide +kernel
      have scanned := (Entry.isOk_scanned _).mpr (accepts.mp ⟨doc, built⟩ _ listed)
      exact absurd scanned (by decide +kernel)
    | error failure =>
      obtain ⟨reports, same, each⟩ := fails failure built
      exact ⟨reports, congrArg Except.error same, each⟩

end Draft

end Spec

end DspIsa
