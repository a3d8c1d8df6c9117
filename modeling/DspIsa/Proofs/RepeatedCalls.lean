import DspIsa.Proofs.Segments
import DspIsa.Proofs.TokenPieces
import Mathlib.Data.List.Perm.Subperm

/-! Calls in a row on one reader. Each call goes on where the one before it stopped, up to the next
refused character or to the end of the text. Reports are kept until a call gets to the end, which
hands all of them out; from then on a call finds nothing. -/
namespace DspIsa

namespace Spec

/-- What one call goes over: the segments that reach the end of their line, and the refused
character that ends the call. The segment in front of that character is not among the rows. -/
structure Pass where
  rows : List Segment
  refused : Option ControlCharacter
  deriving DecidableEq, Repr

namespace Pass

/-- A refused character ends a pass, and the last pass gets to the end of the text. -/
def ofSegments : List Segment → List Pass
  | [] => [⟨[], none⟩]
  | segment :: rest =>
    match segment.cut with
    | some found => ⟨[], some found⟩ :: ofSegments rest
    | none => (ofSegments rest).modifyHead fun pass => { pass with rows := segment :: pass.rows }

def ofText (source : String) : List Pass := ofSegments (Segment.ofText source)

/-- What reading makes of the rows, each of which counts as a line of its own. -/
def outcomes (path : String) (pass : Pass) : List (Except MalformedLine Instruction) :=
  pass.rows.filterMap fun row => readLine path row.tokens

def faults (path : String) (pass : Pass) : List Diagnostic := reports path (pass.outcomes path)

def records (path : String) (pass : Pass) : List Instruction :=
  (pass.outcomes path).filterMap Except.toOption

/-- What a call comes to that goes over the pass, with the reports kept from the calls before. -/
inductive Answers (path digest : String) (kept : List Diagnostic) (pass : Pass) :
    Except SpecError Document → Prop where
  | refused {found : ControlCharacter} (ends : pass.refused = some found) :
    Answers path digest kept pass (.error (refusalError path found))
  | faulty (ends : pass.refused = none) (some : kept ++ pass.faults path ≠ []) :
    Answers path digest kept pass (.error (.diagnostics .parser (kept ++ pass.faults path)))
  | clean (ends : pass.refused = none) (silent : kept = []) (right : pass.faults path = []) :
    Answers path digest kept pass (.ok {
      path
      digest
      instructions := (pass.records path).filter fun instr => !instr.isExtension
      extensions := (pass.records path).filter fun instr => instr.isExtension })

variable {segment : Segment} {segments : List Segment} {found : ControlCharacter} {pass : Pass}
  {passes : List Pass}

theorem ofSegments_cut (cut : segment.cut = some found) :
    ofSegments (segment :: segments) = ⟨[], some found⟩ :: ofSegments segments := by
  rw [ofSegments, cut]

theorem ofSegments_whole (whole : segment.cut = none)
    (behind : ofSegments segments = pass :: passes) :
    ofSegments (segment :: segments) = { pass with rows := segment :: pass.rows } :: passes := by
  rw [ofSegments, whole, behind]
  rfl

/-- There is one pass for each refused character, and one more. -/
theorem map_refused_ofSegments (segments : List Segment) :
    (ofSegments segments).map (·.refused) =
      (segments.filterMap Segment.cut).map some ++ [none] := by
  induction segments with
  | nil => rfl
  | cons segment rest ih =>
    cases cut : segment.cut with
    | some found => rw [ofSegments_cut cut, List.map_cons, ih, List.filterMap_cons_some cut]; rfl
    | none =>
      rw [List.filterMap_cons_none cut, ← ih]
      cases behind : ofSegments rest with
      | nil => simp [behind] at ih
      | cons pass passes =>
        rw [ofSegments_whole cut behind]
        rfl

end Pass

end Spec

open Spec (Segment Pass)

/-- A reading goes over the first pass, and the others are left for later. -/
structure Reading.GoesOver (pass : Pass) (passes : List Pass) (reading : Reading) : Prop where
  lines : Spec.lines reading = pass.rows.map Segment.tokens
  refused : reading.refused = pass.refused
  ended : pass.refused = none → passes = [] ∧ reading.cursor.rest = []
  interrupted : ∀ found, pass.refused = some found → reading.cursor.lineStart = false ∧
    ∃ segments, reading.cursor.Faces segments ∧ Pass.ofSegments segments = passes

theorem Cursor.Faces.goesOver {cursor : Cursor} {segments : List Segment}
    (faces : cursor.Faces segments) :
    ∃ pass passes, Pass.ofSegments segments = pass :: passes ∧
      cursor.read.GoesOver pass passes := by
  induction faces with
  | @last line column opens chars sound =>
    have ends : EndsLine [] := by simp [EndsLine]
    obtain ⟨start, same⟩ := Cursor.read_segment sound (fun _ => ends)
      (ends.stops isWordChar_newline)
    rw [List.append_nil, Cursor.read_end] at same
    refine ⟨_, _, Pass.ofSegments_whole rfl rfl, ?_⟩
    rw [same]
    exact {
      lines := Spec.lines_last (Segment.isInline_tokens _) rfl _
      refused := rfl
      ended := fun _ => ⟨rfl, rfl⟩
      interrupted := fun _ cut => absurd cut (Option.some_ne_none _).symm }
  | @newline line column opens chars text segments sound later ih =>
    obtain ⟨pass, passes, split, going⟩ := ih
    have ends : EndsLine ('\n' :: text) := by simp [EndsLine]
    obtain ⟨start, same⟩ := Cursor.read_segment sound (fun _ => ends)
      (ends.stops isWordChar_newline)
    rw [Cursor.read_newline] at same
    refine ⟨_, _, Pass.ofSegments_whole rfl split, ?_⟩
    rw [same]
    exact {
      lines := by
        rw [Spec.lines_newline (Segment.isInline_tokens _) rfl, going.lines, List.map_cons]
      refused := going.refused
      ended := going.ended
      interrupted := going.interrupted }
  | @refused line column opens chars text segments c cut sound plain refused place later ih =>
    have stops : ∀ d ∈ (c :: text).head?, isWordChar d = false := by
      simpa using isWordChar_of_isRefused refused
    obtain ⟨start, same⟩ := Cursor.read_segment sound (by simp [plain]) stops
    rw [Cursor.read_refused refused] at same
    refine ⟨_, _, Pass.ofSegments_cut place, ?_⟩
    rw [same]
    exact {
      lines := by
        have inline := Segment.isInline_tokens ⟨⟨line, column + 1⟩, chars, opens, cut⟩
        simp only [Spec.lines, Reading.tokens_after, List.append_nil, Reading.refused_after,
          Spec.filter_inline inline,
          List.splitOnP_eq_singleton (Spec.ne_newline_of_inline inline)]
        rfl
      refused := by
        rw [Reading.refused_after, Nat.add_right_comm]
      ended := fun whole => absurd whole (Option.some_ne_none _)
      interrupted := fun _ _ => ⟨rfl, segments, later, rfl⟩ }

/-- The cursor stands right behind a refused character of a text, and no line begins there. -/
structure Cursor.StandsBehind (source : String) (found : ControlCharacter) (cursor : Cursor) :
    Prop where
  place : ∃ front, source.toList = front ++ found.char :: cursor.rest ∧
    found.position = .behind front ∧ cursor.position = .behind (front ++ [found.char])
  lineStart : cursor.lineStart = false

/-- A cursor that tracks its place still does behind a reading, and a refused character is the last
one that the reading has passed. -/
theorem Cursor.Tracks.read {front source : List Char} {cursor : Cursor}
    (tracks : Tracks front cursor) (whole : source = front ++ cursor.rest) :
    ∃ passed, source = passed ++ cursor.read.cursor.rest ∧ Tracks passed cursor.read.cursor ∧
      ∀ found, cursor.read.refused = some found →
        ∃ before, passed = before ++ [found.char] ∧ found.position = .behind before := by
  induction size : cursor.rest.length using Nat.strongRecOn generalizing front cursor with
  | ind n ih =>
    subst size
    obtain ⟨⟨before, chars, result⟩, same, fits, -, -, behind, parts⟩ := tracks.next whole
    have shows : Shows source before chars result := fits.shows
    rcases step : cursor.next with ⟨refused | token, after⟩
    · rw [step] at same behind parts
      obtain rfl : result = .error refused := same
      rw [read_of_next_error step]
      refine ⟨_, parts, behind, fun found same => ?_⟩
      cases same
      cases shows with
      | refused => exact ⟨before, rfl, rfl⟩
    · rw [step] at behind parts
      by_cases ended : token.kind = .eof
      · rw [read_of_next_eof step ended]
        exact ⟨_, parts, behind, nofun⟩
      · have going : isEnd cursor.next.1 = false := by
          rw [step]
          exact beq_eq_false_iff_ne.mpr ended
        have shorter := length_next_lt cursor going
        rw [step] at shorter
        rw [read_of_next step ended]
        exact ih _ shorter behind parts rfl

namespace Spec

variable {path source : String} {kept : List Diagnostic} {pass : Pass} {passes : List Pass}
  {reader : Reader}

namespace Reader

/-- The reader that a number of calls leave. -/
def after (reader : Reader) : Nat → Reader
  | 0 => reader
  | count + 1 => reader.document.2.after count

/-- What calls in a row come to. -/
def answers (reader : Reader) (count : Nat) : List (Except SpecError Document) :=
  (List.range count).map fun index => (reader.after index).document.1

/-- The reader of a text still has to go over some passes, with reports kept from those before. -/
structure Ready (path source : String) (kept : List Diagnostic) (passes : List Pass)
    (reader : Reader) : Prop where
  name : reader.path = path
  text : reader.source = source
  pending : reader.pending = kept
  faces : ∃ segments, reader.cursor.Faces segments ∧ Pass.ofSegments segments = passes
  tracks : ∃ front, reader.cursor.Tracks front ∧ source.toList = front ++ reader.cursor.rest

/-- The reader has got to the end of its text and has handed out all reports. -/
structure Done (path source : String) (reader : Reader) : Prop where
  name : reader.path = path
  text : reader.source = source
  pending : reader.pending = []
  cursor : reader.cursor.rest = []

theorem ready_ofText (path source : String) :
    (ofText path source).Ready path source [] (Pass.ofText source) where
  name := rfl
  text := rfl
  pending := rfl
  faces := ⟨_, faces_ofText source, rfl⟩
  tracks := ⟨[], ⟨rfl, fun _ _ _ => ⟨rfl, nofun⟩⟩, rfl⟩

/-- One call goes over one pass. -/
theorem Ready.step (ready : reader.Ready path source kept passes) :
    ∃ pass later, passes = pass :: later ∧
      pass.Answers path (Digest.sha256 source) kept reader.document.1 ∧
      (pass.refused = none → later = [] ∧ reader.document.2.Done path source) ∧
      ∀ found, pass.refused = some found →
        reader.document.2.Ready path source (kept ++ pass.faults path) later ∧
        reader.document.2.cursor.StandsBehind source found := by
  obtain ⟨rfl, rfl, rfl, ⟨segments, faces, rfl⟩, front, tracks, whole⟩ := ready
  obtain ⟨pass, later, split, going⟩ := faces.goesOver
  obtain ⟨passed, parts, behind, last⟩ := tracks.read whole
  have read : (lines reader.cursor.read).filterMap (readLine reader.path) =
      pass.outcomes reader.path := by
    rw [going.lines, List.filterMap_map]
    rfl
  refine ⟨pass, later, split, ?_⟩
  cases ends : pass.refused with
  | none =>
    have accepted := going.refused.trans ends
    obtain ⟨alone, ended⟩ := going.ended ends
    refine ⟨?_, fun _ => ⟨alone, ?_⟩, nofun⟩
    · rw [fst_document_of_accepted accepted read]
      split
      · rename_i empty
        obtain ⟨silent, right⟩ := List.append_eq_nil_iff.mp (List.isEmpty_iff.mp empty)
        exact .clean ends silent right
      · rename_i some
        exact .faulty ends fun empty => some (List.isEmpty_iff.mpr empty)
    · rw [snd_document_of_accepted accepted]
      exact ⟨rfl, rfl, rfl, ended⟩
  | some found =>
    have refused := going.refused.trans ends
    obtain ⟨lineStart, faces⟩ := going.interrupted found ends
    obtain ⟨before, rfl, position⟩ := last found refused
    rw [document_of_refused refused, read]
    refine ⟨.refused ends, nofun, fun other same => ?_⟩
    cases same
    refine ⟨⟨rfl, rfl, rfl, faces, _, behind, parts⟩,
      ⟨before, ?_, position, behind.position⟩, lineStart⟩
    rw [parts, List.append_assoc, List.singleton_append]

/-- A reader at the end of its text finds nothing, and stays there. -/
theorem Done.step (done : reader.Done path source) :
    reader.document.1 = .ok ⟨path, Digest.sha256 source, [], []⟩ ∧
      reader.document.2.Done path source := by
  obtain ⟨rfl, rfl, pending, ended⟩ := done
  have read : reader.cursor.read =
      ⟨[⟨.eof, "", ⟨reader.cursor.line, reader.cursor.column + 1⟩⟩], none, reader.cursor⟩ := by
    rcases here : reader.cursor with ⟨rest, line, column, start⟩
    rw [here] at ended
    obtain rfl : rest = [] := ended
    exact Cursor.read_end start
  have accepted : reader.cursor.read.refused = none := by rw [read]
  have nothing : (lines reader.cursor.read).filterMap (readLine reader.path) = [] := by
    rw [read]
    rfl
  rw [fst_document_of_accepted accepted nothing, snd_document_of_accepted accepted, pending, read]
  exact ⟨rfl, rfl, rfl, rfl, ended⟩

theorem Done.after (done : reader.Done path source) (count : Nat) :
    (reader.after count).Done path source := by
  induction count generalizing reader with
  | zero => exact done
  | succ count ih => exact ih done.step.2

/-- As many calls go over as many passes, as long as there are any. -/
theorem Ready.after (ready : reader.Ready path source kept passes) {index : Nat}
    (more : index < passes.length) :
    (reader.after index).Ready path source
      (kept ++ (passes.take index).flatMap (Pass.faults path)) (passes.drop index) := by
  induction index generalizing reader kept passes with
  | zero =>
    rw [List.take_zero, List.flatMap_nil, List.append_nil]
    exact ready
  | succ index ih =>
    obtain ⟨pass, later, rfl, -, ended, going⟩ := ready.step
    rw [List.length_cons, Nat.add_lt_add_iff_right] at more
    rw [List.take_succ_cons, List.flatMap_cons, ← List.append_assoc, List.drop_succ_cons]
    cases ends : pass.refused with
    | none =>
      rw [(ended ends).1] at more
      cases more
    | some found => exact ih (going found ends).1 more

/-- When there have been as many calls as passes, the reader is done. -/
theorem Ready.done (ready : reader.Ready path source kept passes) {count : Nat}
    (enough : passes.length ≤ count) : (reader.after count).Done path source := by
  induction count generalizing reader kept passes with
  | zero =>
    obtain ⟨pass, later, rfl, -⟩ := ready.step
    cases enough
  | succ count ih =>
    obtain ⟨pass, later, rfl, -, ended, going⟩ := ready.step
    cases ends : pass.refused with
    | none => exact (ended ends).2.after count
    | some found => exact ih (going found ends).1 (Nat.le_of_succ_le_succ enough)

theorem answers_succ (reader : Reader) (count : Nat) :
    reader.answers (count + 1) = reader.document.1 :: reader.document.2.answers count := by
  rw [answers, List.range_succ_eq_map, List.map_cons, List.map_map]
  rfl

theorem after_succ (reader : Reader) (index : Nat) :
    reader.after (index + 1) = (reader.after index).document.2 := by
  induction index generalizing reader with
  | zero => rfl
  | succ index ih => exact ih reader.document.2

end Reader

/-- The reports about lines that a call hands out. -/
def handedReports : Except SpecError Document → List Diagnostic
  | .error (.diagnostics .parser reports) => reports
  | _ => []

/-- The records that a call hands out. -/
def handedRecords : Except SpecError Document → List Instruction
  | .ok doc => doc.instructions ++ doc.extensions
  | .error _ => []

namespace Pass.Answers

variable {digest : String} {outcome : Except SpecError Document}

theorem of_refused {found : ControlCharacter} (answered : pass.Answers path digest kept outcome)
    (ends : pass.refused = some found) : outcome = .error (refusalError path found) := by
  cases answered with
  | refused same =>
    cases same.symm.trans ends
    rfl
  | faulty same => cases same.symm.trans ends
  | clean same => cases same.symm.trans ends

theorem of_faulty (answered : pass.Answers path digest kept outcome) (ends : pass.refused = none)
    (some : kept ++ pass.faults path ≠ []) :
    outcome = .error (.diagnostics .parser (kept ++ pass.faults path)) := by
  cases answered with
  | refused same => cases same.symm.trans ends
  | faulty => rfl
  | clean same silent right => simp [silent, right] at some

theorem handedReports_eq (answered : pass.Answers path digest kept outcome) :
    handedReports outcome = if pass.refused = none then kept ++ pass.faults path else [] := by
  cases answered with
  | refused ends => simp [handedReports, refusalError, ends]
  | faulty ends some => simp [handedReports, ends]
  | clean ends silent right => simp [handedReports, ends, silent, right]

theorem subperm_handedRecords (answered : pass.Answers path digest kept outcome) :
    (handedRecords outcome).Subperm (pass.records path) := by
  cases answered with
  | refused ends => exact List.nil_subperm
  | faulty ends some => exact List.nil_subperm
  | clean ends silent right =>
    have parts := List.filter_append_perm (fun instr => instr.isExtension) (pass.records path)
    exact (List.perm_append_comm.trans parts).subperm

end Pass.Answers

namespace Reader

theorem Done.handed (done : reader.Done path source) (count : Nat) :
    (reader.answers count).flatMap handedReports = [] ∧
      (reader.answers count).flatMap handedRecords = [] := by
  induction count generalizing reader with
  | zero => exact ⟨rfl, rfl⟩
  | succ count ih =>
    obtain ⟨answer, still⟩ := done.step
    rw [answers_succ, List.flatMap_cons, List.flatMap_cons, answer]
    exact ih still

/-- Every report is handed out once, when a call gets to the end of the text. -/
theorem Ready.handedReports_eq (ready : reader.Ready path source kept passes) (count : Nat) :
    (reader.answers count).flatMap handedReports =
      if passes.length ≤ count then kept ++ passes.flatMap (Pass.faults path) else [] := by
  induction count generalizing reader kept passes with
  | zero =>
    obtain ⟨pass, later, rfl, -⟩ := ready.step
    rfl
  | succ count ih =>
    obtain ⟨pass, later, rfl, answered, ended, going⟩ := ready.step
    rw [answers_succ, List.flatMap_cons, answered.handedReports_eq, List.length_cons,
      List.flatMap_cons]
    cases ends : pass.refused with
    | none =>
      obtain ⟨rfl, done⟩ := ended ends
      rw [(done.handed count).1]
      simp
    | some found =>
      rw [ih (going found ends).1, List.append_assoc]
      simp

/-- No record is handed out twice. -/
theorem Ready.subperm_handedRecords (ready : reader.Ready path source kept passes) (count : Nat) :
    ((reader.answers count).flatMap handedRecords).Subperm
      (passes.flatMap (Pass.records path)) := by
  induction count generalizing reader kept passes with
  | zero => exact List.nil_subperm
  | succ count ih =>
    obtain ⟨pass, later, rfl, answered, ended, going⟩ := ready.step
    rw [answers_succ, List.flatMap_cons, List.flatMap_cons]
    cases ends : pass.refused with
    | none =>
      obtain ⟨rfl, done⟩ := ended ends
      rw [(done.handed count).2, List.append_nil, List.flatMap_nil, List.append_nil]
      exact answered.subperm_handedRecords
    | some found =>
      rw [answered.of_refused ends]
      exact (ih (going found ends).1).trans (List.sublist_append_right _ _).subperm

/-- A reader called again and again goes over the passes of its text, which the refused characters
outside comments divide. A call that stops at such a character reports it and nothing else, keeps
the reports on the lines it has passed, and leaves the cursor right behind the character. The call
that gets to the end hands out all reports, or the records of its own pass where there are none;
the calls after it give an empty document. So no call repeats a report or a record. -/
theorem answers_passes (path source : String) :
    (Pass.ofText source).map (·.refused) = (outside isRefused source).map some ++ [none] ∧
    (∀ index pass, (Pass.ofText source)[index]? = some pass →
      ((ofText path source).after index).pending =
        ((Pass.ofText source).take index).flatMap (Pass.faults path) ∧
      pass.Answers path (Digest.sha256 source) ((ofText path source).after index).pending
        ((ofText path source).after index).document.1 ∧
      ∀ found, pass.refused = some found →
        ((ofText path source).after (index + 1)).cursor.StandsBehind source found) ∧
    (∀ index, (Pass.ofText source).length ≤ index →
      ((ofText path source).after index).document.1 =
        .ok ⟨path, Digest.sha256 source, [], []⟩) ∧
    ∀ count,
      ((ofText path source).answers count).flatMap handedReports =
        (if (Pass.ofText source).length ≤ count then
          (Pass.ofText source).flatMap (Pass.faults path) else []) ∧
      (((ofText path source).answers count).flatMap handedRecords).Subperm
        ((Pass.ofText source).flatMap (Pass.records path)) := by
  have ready := ready_ofText path source
  refine ⟨?_, fun index pass found => ?_, fun index enough => ?_, fun count => ⟨?_, ?_⟩⟩
  · rw [Pass.ofText, Pass.map_refused_ofSegments, filterMap_cut_ofText]
  · obtain ⟨inside, here⟩ := List.getElem?_eq_some_iff.mp found
    have then' := ready.after inside
    rw [List.drop_eq_getElem_cons inside, here, List.nil_append] at then'
    obtain ⟨first, later, same, answered, -, going⟩ := then'.step
    cases same
    rw [after_succ, then'.pending]
    exact ⟨rfl, answered, fun found ends => (going found ends).2⟩
  · exact (ready.done enough).step.1
  · exact ready.handedReports_eq count
  · exact ready.subperm_handedRecords count

/-- A line without a star, a line that a refused character cuts in two, and a quote mark behind
another one that opens no extension. -/
def stuttering : String := "ADD\nHALT * 00\x0700\n\x01'NOP * 0000 0000 0000 0000\n"

theorem answers_passes_stuttering :
    Pass.ofText stuttering = [
      ⟨[⟨⟨1, 1⟩, "ADD".toList, true, none⟩], some ⟨'\x07', 2, 10⟩⟩,
      ⟨[⟨⟨2, 11⟩, "00".toList, false, none⟩], some ⟨'\x01', 3, 1⟩⟩,
      ⟨[⟨⟨3, 2⟩, "'NOP * 0000 0000 0000 0000".toList, false, none⟩, ⟨⟨4, 1⟩, [], true, none⟩],
        none⟩] ∧
    ((ofText "s" stuttering).after 0).document.1 =
      .error (refusalError "s" ⟨'\x07', 2, 10⟩) ∧
    ((ofText "s" stuttering).after 1).cursor.StandsBehind stuttering ⟨'\x07', 2, 10⟩ ∧
    ((ofText "s" stuttering).after 1).document.1 =
      .error (refusalError "s" ⟨'\x01', 3, 1⟩) ∧
    (∃ reports, ((ofText "s" stuttering).after 2).document.1 =
        .error (.diagnostics .parser reports) ∧
      reports.map Diagnostic.place = ["s:1:1", "s:2:11"]) ∧
    ((ofText "s" stuttering).after 3).document.1 =
      .ok ⟨"s", Digest.sha256 stuttering, [], []⟩ := by
  have listed : Pass.ofText stuttering = [
      ⟨[⟨⟨1, 1⟩, "ADD".toList, true, none⟩], some ⟨'\x07', 2, 10⟩⟩,
      ⟨[⟨⟨2, 11⟩, "00".toList, false, none⟩], some ⟨'\x01', 3, 1⟩⟩,
      ⟨[⟨⟨3, 2⟩, "'NOP * 0000 0000 0000 0000".toList, false, none⟩, ⟨⟨4, 1⟩, [], true, none⟩],
        none⟩] := by decide +kernel
  have places : ((Pass.ofText stuttering).flatMap (Pass.faults "s")).map Diagnostic.place =
      ["s:1:1", "s:2:11"] := by decide +kernel
  obtain ⟨-, calls, idle, -⟩ := answers_passes "s" stuttering
  rw [listed] at calls idle places
  obtain ⟨-, first, behind⟩ := calls 0 _ rfl
  obtain ⟨-, second, -⟩ := calls 1 _ rfl
  obtain ⟨kept, third, -⟩ := calls 2 _ rfl
  have all (first second third : Pass) :
      [first, second, third].flatMap (Pass.faults "s") =
        ([first, second, third].take 2).flatMap (Pass.faults "s") ++ third.faults "s" := by
    simp
  rw [all] at places
  rw [kept] at third
  refine ⟨listed, first.of_refused rfl, behind _ rfl, second.of_refused rfl,
    ⟨_, third.of_faulty rfl fun empty => ?_, places⟩, idle 3 (Nat.le_refl 3)⟩
  rw [empty] at places
  cases places

end Reader

end Spec

end DspIsa
