import DspIsa.Loading
import Mathlib.Data.List.Basic

/-! Disks whose files are replaced as a whole. Nothing else is asked of the place where specs and
generated files stand, and a store of files in memory is one. -/
namespace DspIsa

section Runs

variable {State First Second : Type}

/-- What a run on a disk gives, and the disk that it leaves. -/
def runOn (before : State) (action : StateM State First) : First × State :=
  Id.run (StateT.run action before)

theorem runOn_bind (before : State) (action : StateM State First)
    (next : First → StateM State Second) :
    runOn before (action >>= next) =
      runOn (runOn before action).2 (next (runOn before action).1) := rfl

end Runs

variable {State : Type} [MonadFiles (StateM State)]

/-- Which files a disk holds, and what its operations do to them: reading a file shows what stands
at its path and changes nothing; writing replaces the file at its path or has no effect. -/
structure Disk (State : Type) [MonadFiles (StateM State)] where
  Place : Type
  /-- Where a path leads. -/
  place? : State → String → Option Place
  /-- What stands at a place. -/
  content? : State → Place → Option Entry
  keeps_of_read (before : State) (path : String) : (runOn before (readFile path)).2 = before
  shows_of_read {before : State} {path : String} {bytes : ByteArray} :
    (runOn before (readFile path)).1 = .ok bytes →
      ∃ place, place? before path = some place ∧ content? before place = some (.file bytes)
  keeps_of_refused {before : State} {path : String} {bytes : ByteArray} {fault : FileFault} :
    (runOn before (writeFile path bytes)).1 = .error fault →
      (runOn before (writeFile path bytes)).2 = before
  replaces_of_done {before : State} {path : String} {bytes : ByteArray} :
    (runOn before (writeFile path bytes)).1 = .ok () →
      ∃ place, place? before path = some place ∧
        content? (runOn before (writeFile path bytes)).2 place = some (.file bytes) ∧
        ∀ other, other ≠ place →
          content? (runOn before (writeFile path bytes)).2 other = content? before other

namespace Disk

variable (disk : Disk State)

/-- The text of the file that a path leads to. -/
def text? (state : State) (path : String) : Option String :=
  match (disk.place? state path).bind (disk.content? state) with
  | some (.file bytes) => String.fromUTF8? bytes
  | _ => none

include disk in
theorem keeps_of_readText (before : State) (path : String) :
    (runOn before (readText path)).2 = before := by
  unfold readText
  rw [runOn_bind, disk.keeps_of_read]
  cases (runOn before (readFile path)).1 with
  | error fault => rfl
  | ok bytes =>
    dsimp only
    cases String.fromUTF8? bytes with
    | none => rfl
    | some text => rfl

theorem text?_of_readText {before : State} {path text : String}
    (read : (runOn before (readText path)).1 = .ok text) : disk.text? before path = some text := by
  unfold readText at read
  rw [runOn_bind, disk.keeps_of_read] at read
  cases found : (runOn before (readFile path)).1 with
  | error fault =>
    rw [found] at read
    cases read
  | ok bytes =>
    obtain ⟨place, leads, stands⟩ := disk.shows_of_read found
    rw [found] at read
    dsimp only at read
    cases decoded : String.fromUTF8? bytes with
    | none =>
      rw [decoded] at read
      cases read
    | some other =>
      rw [decoded] at read
      cases read
      simp only [text?, leads, Option.bind_some, stands, decoded]

end Disk

theorem readText_eq_ok {before : State} {path text : String} {bytes : ByteArray}
    (read : (runOn before (readFile path)).1 = .ok bytes)
    (decoded : String.fromUTF8? bytes = some text) :
    (runOn before (readText path)).1 = .ok text := by
  unfold readText
  rw [runOn_bind, read]
  dsimp only
  rw [decoded]
  rfl

namespace FileStore

variable {store after : FileStore} {place other : List String} {path : String} {entry : Entry}
  {bytes : ByteArray}

theorem entry?_put_self (free : store.entry? place ≠ some .directory) :
    entry? (store.put place entry) place = some entry := by
  unfold entry? at free ⊢
  split
  · rename_i fixed
    rw [if_pos fixed] at free
    exact absurd rfl free
  · rw [put, List.lookup_cons_self]

theorem lookup_filter_ne (apart : other ≠ place) (entries : List (List String × Entry)) :
    (entries.filter fun old => old.1 != place).lookup other = entries.lookup other := by
  induction entries with
  | nil => rfl
  | cons old entries ih =>
    obtain ⟨own, entry⟩ := old
    by_cases same : own = place
    · have missed : (other == own) = false := by simp [same, apart]
      rw [List.filter_cons_of_neg (by simp [same]), List.lookup_cons, missed]
      exact ih
    · rw [List.filter_cons_of_pos (by simp [same]), List.lookup_cons, List.lookup_cons, ih]

theorem entry?_put_of_ne (apart : other ≠ place) :
    entry? (store.put place entry) other = store.entry? other := by
  have missed : (other == place) = false := beq_false_of_ne apart
  unfold entry?
  rw [put, List.lookup_cons, missed]
  simp only [lookup_filter_ne apart]

theorem exists_of_bind {First Second : Type} {first : Except FileFault First}
    {next : First → Except FileFault Second} {result : Second}
    (done : first >>= next = .ok result) :
    ∃ value, first = .ok value ∧ next value = .ok result := by
  cases first with
  | error fault => cases done
  | ok value => exact ⟨value, rfl, done⟩

theorem exists_of_read (read : store.read path = .ok bytes) :
    ∃ place, store.resolve path = .ok place ∧ store.entry? place = some (.file bytes) := by
  obtain ⟨place, leads, shown⟩ := exists_of_bind read
  refine ⟨place, leads, ?_⟩
  split at shown
  · rename_i stands
    cases shown
    exact stands
  · cases shown
  · cases shown

/-- Taking the last name off a path and entering it there is following the whole path. -/
theorem resolve_of_target {found : Target} (aims : store.target path = .ok found)
    (bare : found.closed = false) (enters : store.enter found.parent found.name = .ok place) :
    store.resolve path = .ok place := by
  obtain ⟨names, named, aims⟩ := exists_of_bind aims
  obtain ⟨parent, follows, aims⟩ := exists_of_bind aims
  obtain ⟨_, _, aims⟩ := exists_of_bind aims
  cases aims
  have steps : store.resolve path = names.foldlM store.enter (origin path) := by
    rw [resolve, named]
    rfl
  rw [steps]
  rcases List.eq_nil_or_concat' names with rfl | ⟨front, last, rfl⟩
  · have short : ¬ 255 < "".utf8ByteSize := by decide
    cases follows
    change store.enter (origin path) "" = .ok place at enters
    obtain ⟨_, _, enters⟩ := exists_of_bind enters
    rw [if_neg short] at enters
    cases enters
    rfl
  · have shown : last ≠ "" := by simpa using bare
    have backwards : (front ++ [last]).reverse.dropWhile (· = "") = last :: front.reverse := by
      simp [shown]
    simp only [backwards, List.tail_cons, List.reverse_reverse, List.headD_cons] at follows enters
    rw [List.foldlM_append, follows]
    exact (bind_pure _).trans enters

theorem exists_of_write (written : store.write path bytes = .ok after) :
    ∃ place, store.resolve path = .ok place ∧ store.entry? place ≠ some .directory ∧
      after = store.put place (.file bytes) := by
  obtain ⟨found, aims, written⟩ := exists_of_bind written
  split at written
  · cases written
  rename_i bare
  obtain ⟨place, enters, written⟩ := exists_of_bind written
  split at written
  · cases written
  rename_i free
  cases written
  exact ⟨place, resolve_of_target aims (Bool.eq_false_iff.mpr bare) enters, free, rfl⟩

theorem runOn_writeFile (store : FileStore) (path : String) (bytes : ByteArray) :
    runOn store (writeFile path bytes) =
      match store.write path bytes with
      | .error fault => (.error fault, store)
      | .ok after => (.ok (), after) := by
  have steps : runOn store (writeFile path bytes) = runOn store (match store.write path bytes with
    | .error fault => pure (.error fault)
    | .ok after => do
      set after
      return .ok ()) := rfl
  rw [steps]
  cases store.write path bytes with
  | error fault => rfl
  | ok after => rfl

/-- A store of files in memory is such a disk. -/
def disk : Disk FileStore where
  Place := List String
  place? store path := (store.resolve path).toOption
  content? := entry?
  keeps_of_read _ _ := rfl
  shows_of_read shown := by
    obtain ⟨place, leads, stands⟩ := exists_of_read shown
    exact ⟨place, congrArg Except.toOption leads, stands⟩
  keeps_of_refused := by
    intro before path bytes fault refused
    rw [runOn_writeFile] at refused ⊢
    cases written : before.write path bytes with
    | error fault => rfl
    | ok after =>
      rw [written] at refused
      cases refused
  replaces_of_done := by
    intro before path bytes done
    rw [runOn_writeFile] at done ⊢
    cases written : before.write path bytes with
    | error fault =>
      rw [written] at done
      cases done
    | ok after =>
      obtain ⟨place, leads, free, rfl⟩ := exists_of_write written
      exact ⟨place, congrArg Except.toOption leads, entry?_put_self free,
        fun other apart => entry?_put_of_ne apart⟩

end FileStore

end DspIsa
