import DspIsa.Log
import DspIsa.Regex.OfText
import DspIsa.Regex.Search
import DspIsa.Text.Blank

/-! Which records of the log are shown. A filter is written as directives between commas, each a
level, the name of a target or both, and then maybe a slash and a regular expression for the
message. -/
namespace DspIsa

/-- The most detailed level that is shown, or none, for the targets whose names begin with a name.
Without a name it is for all targets. -/
structure LogDirective where
  name : Option String
  level : Option LogLevel
  deriving DecidableEq, Repr

namespace LogDirective

def appliesTo (directive : LogDirective) (target : LogTarget) : Bool :=
  directive.name.all fun name => name.toList.isPrefixOf target.name.toList

/-- How much of the name of a target the directive fixes. -/
def nameSize (directive : LogDirective) : Nat := (directive.name.map String.utf8ByteSize).getD 0

def shows (directive : LogDirective) (level : LogLevel) : Bool :=
  directive.level.any fun most => level.detail ≤ most.detail

end LogDirective

structure LogFilter where
  directives : List LogDirective
  message : Option Regex
  deriving DecidableEq, Repr

namespace LogFilter

/-- A filter without directives of its own. It shows errors. -/
def errorsOnly : List LogDirective := [⟨none, some .error⟩]

/-- The directive that decides about a target: the one that fixes most of its name, and the last
one among equals. -/
def deciding? (filter : LogFilter) (target : LogTarget) : Option LogDirective :=
  let directives := if filter.directives.isEmpty then errorsOnly else filter.directives
  (directives.filter (·.appliesTo target)).foldl (fun best directive =>
    if best.any fun best => directive.nameSize < best.nameSize then best else some directive) none

/-- Whether a record is shown. -/
def shows (filter : LogFilter) (record : LogRecord) : Bool :=
  (filter.deciding? record.target).any (·.shows record.level) &&
    filter.message.all (·.occursIn record.message)

/-- Adds a directive, in the place of an earlier one with the same name. -/
def add (directives : List LogDirective) (directive : LogDirective) : List LogDirective :=
  if directives.any (·.name = directive.name) then
    directives.map fun earlier => if earlier.name = directive.name then directive else earlier
  else directives ++ [directive]

/-- Of the directives with a name the last one written counts. -/
theorem find?_add (directives : List LogDirective) (directive : LogDirective) :
    (add directives directive).find? (·.name = directive.name) = some directive := by
  unfold add
  split
  · rename_i present
    induction directives with
    | nil => simp at present
    | cons first rest ih =>
      by_cases same : first.name = directive.name
      · simp [same]
      · simp only [List.any_cons, decide_eq_false same, Bool.false_or] at present
        simpa [same] using ih present
  · rename_i absent
    simp only [List.any_eq_true, decide_eq_true_eq, not_exists, not_and] at absent
    rw [List.find?_append, List.find?_eq_none.mpr (by simpa using absent)]
    simp

/-- A part of a written filter that makes no sense and is left out. -/
inductive Fault where
  | slashes (text : String)
  | directive (text : String)
  | expression (text : String) (refusal : Regex.Refusal)
  deriving DecidableEq, Repr

namespace Fault

def message : Fault → String
  | .slashes text => s!"invalid logging spec '{text}' (too many '/'s)"
  | .directive text => s!"invalid logging spec '{text}'"
  | .expression text refusal => s!"invalid regex filter - {refusal.message text}"

/-- What is printed about the part. -/
def notice (fault : Fault) : String := s!"warning: {fault.message}, ignoring it\n"

end Fault

/-- The level of a name in any case. The name `off` stands for none. -/
def level? (text : String) : Option (Option LogLevel) :=
  match text.map Char.toUpper with
  | "OFF" => some none
  | "ERROR" => some (some .error)
  | "WARN" => some (some .warn)
  | "INFO" => some (some .info)
  | "DEBUG" => some (some .debug)
  | "TRACE" => some (some .trace)
  | _ => none

/-- Reads a directive. A target without a level is shown in full detail. -/
def directiveOf (text : String) : Except Fault LogDirective :=
  match text.splitOn "=" with
  | [name] =>
    match level? name with
    | some level => .ok ⟨none, level⟩
    | none => .ok ⟨some name, some .trace⟩
  | [name, setting] =>
    let setting := Text.trimmed setting
    if setting = "" then .ok ⟨some name, some .trace⟩
    else
      match level? setting with
      | some level => .ok ⟨some name, level⟩
      | none => .error (.directive setting)
  | _ => .error (.directive text)

/-- The expression of a filter, of which there may be none. -/
def messageOf : List String → Except Fault (Option Regex)
  | [] => .ok none
  | text :: _ => (Regex.ofText text).map some |>.mapError (.expression text)

/-- Reads a filter, and lists what was left out of it. -/
def ofText (text : String) : LogFilter × List Fault :=
  match text.splitOn "/" with
  | directives :: expression =>
    if 1 < expression.length then (⟨[], none⟩, [.slashes text])
    else
      let pieces := ((directives.splitOn ",").map Text.trimmed).filter (· ≠ "")
      let read := pieces.map directiveOf
      let known := read.filterMap Except.toOption
      let faults := read.filterMap fun
        | .error fault => some fault
        | .ok _ => none
      match messageOf expression with
      | .ok message => (⟨known.foldl add [], message⟩, faults)
      | .error fault => (⟨known.foldl add [], none⟩, faults ++ [fault])
  | [] => (⟨[], none⟩, [])

end LogFilter

end DspIsa
