import DspIsa.Proofs.TypeNames

/-! Which number a type name gets. A name that was handed out before comes back with the least
number that makes a new one. The number remembered for a name is only where the search starts; every
number below it makes a name that was handed out, also when another name was asked for. -/
namespace DspIsa.Generated

/-- A request for a type name. -/
inductive NameRequest where
  | plain (base : String)
  | main (opcode : String)
  | extension (opcode : String)
  deriving DecidableEq, Repr

namespace NameRequest

/-- The name that is handed out if it is new. -/
def base : NameRequest → String
  | .plain base => base
  | .main opcode => typeIdent opcode
  | .extension opcode => "EXT_" ++ typeIdent opcode

def answer (names : TypeNames) : NameRequest → String × TypeNames
  | .plain base => names.claim base
  | .main opcode => names.claimMain opcode
  | .extension opcode => names.claimExtension opcode

theorem answer_eq_claim (names : TypeNames) (request : NameRequest) :
    request.answer names = names.claim request.base := by
  cases request <;> rfl

end NameRequest

namespace TypeNames

/-- The names handed out for a list of requests, and the state they leave. -/
def answerAll (names : TypeNames) : List NameRequest → List String × TypeNames
  | [] => ([], names)
  | request :: rest =>
    let (ident, names) := request.answer names
    let (idents, names) := names.answerAll rest
    (ident :: idents, names)

/-- The first free number from a number on, found in at most the given number of turns. -/
def search (names : TypeNames) (base : String) : Nat → Nat → Option Nat
  | 0, _ => none
  | turns + 1, number =>
    if names.isTaken (numbered base number) then names.search base turns (number + 1)
    else some number

/-- What is handed out for a name, by the names handed out before. -/
inductive FirstFree (earlier : List String) (base : String) : String → Prop where
  | itself (new : base ∉ earlier) : FirstFree earlier base base
  | behind (number : Nat) (old : base ∈ earlier) (positive : 1 ≤ number)
      (new : numbered base number ∉ earlier)
      (least : ∀ lower, 1 ≤ lower → lower < number → numbered base lower ∈ earlier) :
      FirstFree earlier base (numbered base number)

/-- All numbers from one up to a number that is not among them make names handed out before. -/
def UsedBelow (earlier : List String) (base : String) (bound : Nat) : Prop :=
  1 ≤ bound ∧ ∀ lower, 1 ≤ lower → lower < bound → numbered base lower ∈ earlier

/-- The state after some names: these are the ones taken, and no free number is skipped. -/
structure Remembers (names : TypeNames) (earlier : List String) : Prop where
  taken : ∀ ident, names.isTaken ident = true ↔ ident ∈ earlier
  usedBelow : ∀ entry ∈ names.taken, UsedBelow earlier entry.1 entry.2

/-- One answer: the first free name, and for a name asked for again a search that skips nothing
where it starts, and ends. -/
structure Answers (names : TypeNames) (earlier : List String) (base ident : String) : Prop where
  firstFree : FirstFree earlier base ident
  searched : ∀ start, names.next? base = some start →
    UsedBelow earlier base start ∧ ∃ number, ident = numbered base number ∧
      ∀ turns, names.taken.length < turns → names.search base turns start = some number

variable {names : TypeNames} {earlier : List String} {base ident : String}

/-- A search that has turns enough finds the least free number. -/
theorem search_of_least {start number : Nat} (behind : start ≤ number)
    (free : names.isTaken (numbered base number) = false)
    (least : ∀ lower, start ≤ lower → lower < number →
      names.isTaken (numbered base lower) = true)
    {turns : Nat} (enough : number < start + turns) :
    names.search base turns start = some number := by
  induction turns generalizing start with
  | zero => omega
  | succ turns ih =>
    rw [search]
    by_cases found : start = number
    · rw [found, free]
      rfl
    · rw [least start (Nat.le_refl _) (by omega), if_pos rfl]
      exact ih (by omega) (fun lower above => least lower (by omega)) (by omega)

theorem search_eq_find? (names : TypeNames) (base : String) (turns start : Nat) :
    names.search base turns start =
      (List.range' start turns).find? fun number => !names.isTaken (numbered base number) := by
  induction turns generalizing start with
  | zero => rfl
  | succ turns ih =>
    rw [search, ih, List.range'_succ, List.find?_cons]
    cases names.isTaken (numbered base start) <;> rfl

/-- From every number on there is a least free one, and no more numbers than names before it. -/
theorem exists_least_free (names : TypeNames) (base : String) (start : Nat) :
    ∃ number, start ≤ number ∧ number ≤ start + names.taken.length ∧
      names.isTaken (numbered base number) = false ∧
      ∀ lower, start ≤ lower → lower < number →
        names.isTaken (numbered base lower) = true := by
  obtain ⟨number, listed, free⟩ := exists_free names base start
  obtain ⟨offset, inside, rfl⟩ := List.mem_map.mp listed
  have some : ∃ number, start ≤ number ∧ names.isTaken (numbered base number) = false :=
    ⟨start + offset, Nat.le_add_right _ _, free⟩
  have first := Nat.find_min' some ⟨Nat.le_add_right start offset, free⟩
  rw [List.mem_range] at inside
  refine ⟨Nat.find some, (Nat.find_spec some).1, by omega, (Nat.find_spec some).2, ?_⟩
  intro lower above below
  have missed := Nat.find_min some below
  rw [← Bool.not_eq_false]
  exact fun unused => missed ⟨above, unused⟩

/-- The search for the first free number ends, and that number is what is handed out. -/
theorem firstFree_spec (names : TypeNames) (base : String) (start : Nat) :
    start ≤ names.firstFree base start ∧
      names.isTaken (numbered base (names.firstFree base start)) = false ∧
      (∀ lower, start ≤ lower → lower < names.firstFree base start →
        names.isTaken (numbered base lower) = true) ∧
      ∀ turns, names.taken.length < turns →
        names.search base turns start = some (names.firstFree base start) := by
  obtain ⟨number, behind, near, free, least⟩ := exists_least_free names base start
  have found (turns : Nat) (enough : names.taken.length < turns) :
      names.search base turns start = some number :=
    search_of_least behind free least (by omega)
  have same : names.firstFree base start = number := by
    have last := found (names.taken.length + 1) (Nat.lt_succ_self _)
    rw [search_eq_find?, List.range'_eq_map_range] at last
    rw [firstFree, last, Option.getD_some]
  rw [same]
  exact ⟨behind, free, least, found⟩

theorem Remembers.isTaken_eq_false (remembers : names.Remembers earlier) :
    names.isTaken ident = false ↔ ident ∉ earlier := by
  rw [← remembers.taken, Bool.not_eq_true]

theorem UsedBelow.mono {bound : Nat} (used : UsedBelow earlier base bound) (more : List String) :
    UsedBelow (earlier ++ more) base bound :=
  ⟨used.1, fun lower positive below => List.mem_append_left _ (used.2 lower positive below)⟩

/-- The number remembered for a name that was handed out before. -/
theorem Remembers.usedBelow_next (remembers : names.Remembers earlier) {start : Nat}
    (old : names.next? base = some start) : UsedBelow earlier base start := by
  obtain ⟨before, after, listed, -⟩ := List.lookup_eq_some_iff.mp old
  have member : (base, start) ∈ names.taken := by
    rw [listed]
    exact List.mem_append_right _ List.mem_cons_self
  exact remembers.usedBelow _ member

theorem claim_of_new (new : names.next? base = none) :
    names.claim base = (base, names.set base 1) := by
  rw [claim, new]

theorem claim_of_old {start : Nat} (old : names.next? base = some start) :
    names.claim base = (numbered base (names.firstFree base start),
      (names.set base (names.firstFree base start + 1)).set
        (numbered base (names.firstFree base start)) 1) := by
  rw [claim, old]

/-- All numbers below the first free one make names handed out before. -/
theorem Remembers.usedBelow_firstFree (remembers : names.Remembers earlier) {start : Nat}
    (old : names.next? base = some start) :
    UsedBelow earlier base (names.firstFree base start) := by
  obtain ⟨positive, before⟩ := remembers.usedBelow_next old
  obtain ⟨behind, -, least, -⟩ := names.firstFree_spec base start
  refine ⟨positive.trans behind, fun lower low below => ?_⟩
  rcases Nat.lt_or_ge lower start with early | late
  · exact before lower low early
  · exact (remembers.taken _).mp (least lower late below)

/-- What a claim hands out is the first free name. -/
theorem Remembers.answers_claim (remembers : names.Remembers earlier) (base : String) :
    names.Answers earlier base (names.claim base).1 := by
  cases old : names.next? base with
  | none =>
    have new : base ∉ earlier := by
      rw [← remembers.isTaken_eq_false, isTaken, old]
      rfl
    rw [claim_of_new old]
    exact ⟨.itself new, fun start found => by cases old.symm.trans found⟩
  | some start =>
    have member : base ∈ earlier := by
      rw [← remembers.taken, isTaken, old]
      rfl
    have used := remembers.usedBelow_firstFree old
    obtain ⟨-, free, -, ends⟩ := names.firstFree_spec base start
    rw [claim_of_old old]
    refine ⟨.behind _ member used.1 (remembers.isTaken_eq_false.mp free) used.2, ?_⟩
    intro again found
    cases old.symm.trans found
    exact ⟨remembers.usedBelow_next old, _, rfl, ends⟩

theorem usedBelow_of_mem_set {next : Nat} (used : UsedBelow earlier ident next)
    (others : ∀ entry ∈ names.taken, UsedBelow earlier entry.1 entry.2) :
    ∀ entry ∈ (names.set ident next).taken, UsedBelow earlier entry.1 entry.2 := by
  intro entry member
  rcases List.mem_cons.mp member with rfl | old
  · exact used
  · exact others entry (List.mem_filter.mp old).1

/-- The state behind a claim remembers the name as well. -/
theorem Remembers.claim (remembers : names.Remembers earlier) (base : String) :
    (names.claim base).2.Remembers (earlier ++ [(names.claim base).1]) := by
  have one (after : List String) (ident : String) : UsedBelow after ident 1 :=
    ⟨Nat.le_refl 1, fun lower positive below => by omega⟩
  refine ⟨fun other => ?_, ?_⟩
  · rw [(names.fresh_claim base).taken, remembers.taken, List.mem_append, List.mem_singleton,
      or_comm]
  · have others (entry : String × Nat) (member : entry ∈ names.taken) :
        UsedBelow (earlier ++ [(names.claim base).1]) entry.1 entry.2 :=
      (remembers.usedBelow entry member).mono _
    cases old : names.next? base with
    | none =>
      rw [claim_of_new old] at others ⊢
      exact usedBelow_of_mem_set (one _ base) others
    | some start =>
      have used := (remembers.usedBelow_firstFree old).mono [(names.claim base).1]
      rw [claim_of_old old] at others used ⊢
      refine usedBelow_of_mem_set (one _ _) (usedBelow_of_mem_set ?_ others)
      refine ⟨by omega, fun lower positive below => ?_⟩
      rcases Nat.lt_or_eq_of_le (Nat.le_of_lt_succ below) with early | rfl
      · exact used.2 lower positive early
      · exact List.mem_append_right _ (List.mem_singleton.mpr rfl)

/-- A first free name is new. -/
theorem FirstFree.not_mem (first : FirstFree earlier base ident) : ident ∉ earlier := by
  cases first with
  | itself new => exact new
  | behind number old positive new least => exact new

theorem answerAll_cons (names : TypeNames) (request : NameRequest) (rest : List NameRequest) :
    names.answerAll (request :: rest) =
      ((names.claim request.base).1 :: ((names.claim request.base).2.answerAll rest).1,
        ((names.claim request.base).2.answerAll rest).2) := by
  rw [answerAll, NameRequest.answer_eq_claim]

/-- A run of requests from a state that remembers what was handed out before. -/
theorem Remembers.answerAll (remembers : names.Remembers earlier) (requests : List NameRequest)
    (distinct : earlier.Nodup) :
    (names.answerAll requests).1.length = requests.length ∧
      (earlier ++ (names.answerAll requests).1).Nodup ∧
      ∀ k request ident, requests[k]? = some request →
        (names.answerAll requests).1[k]? = some ident →
        (names.answerAll (requests.take k)).2.Answers
          (earlier ++ (names.answerAll requests).1.take k) request.base ident := by
  induction requests generalizing names earlier with
  | nil => exact ⟨rfl, by simpa [TypeNames.answerAll] using distinct, by simp⟩
  | cons request rest ih =>
    have answers := remembers.answers_claim request.base
    have longer : (earlier ++ [(names.claim request.base).1]).Nodup := by
      rw [List.nodup_append_comm]
      exact List.nodup_cons.mpr ⟨answers.firstFree.not_mem, distinct⟩
    obtain ⟨size, apart, later⟩ := ih (remembers.claim request.base) longer
    rw [answerAll_cons]
    refine ⟨congrArg (· + 1) size, by simpa using apart, fun k other ident asked handed => ?_⟩
    cases k with
    | zero =>
      cases asked
      cases handed
      simpa [TypeNames.answerAll] using answers
    | succ k =>
      rw [List.take_succ_cons, answerAll_cons, List.take_succ_cons, List.append_cons]
      exact later k other ident asked handed

theorem remembers_empty : empty.Remembers [] :=
  ⟨fun ident => by simp [isTaken, next?, empty], fun entry member => by cases member⟩

/-- For every sequence of requests, each gets a name, all names are different, and each is the first
free one for what was asked. -/
theorem answerAll_firstFree (requests : List NameRequest) :
    let handed := (empty.answerAll requests).1
    handed.length = requests.length ∧ handed.Nodup ∧
      ∀ k request ident, requests[k]? = some request → handed[k]? = some ident →
        (empty.answerAll (requests.take k)).2.Answers (handed.take k) request.base ident := by
  have run := remembers_empty.answerAll requests List.nodup_nil
  simpa only [List.nil_append] using run

/-- Numbered names that are asked for themselves. -/
def crossedRequests : List NameRequest :=
  [.main "NOP", .main "nop", .main "NOP_1", .main "NOP", .extension "NOP", .main "EXT.NOP",
    .plain "NOP_3", .plain "NOP"]

theorem answerAll_firstFree_crossed :
    (empty.answerAll crossedRequests).1 =
        ["NOP", "NOP_1", "NOP_1_1", "NOP_2", "EXT_NOP", "EXT_NOP_1", "NOP_3", "NOP_4"] ∧
      (empty.answerAll crossedRequests).1.Nodup ∧
      FirstFree ["NOP", "NOP_1", "NOP_1_1", "NOP_2", "EXT_NOP", "EXT_NOP_1", "NOP_3"] "NOP"
        "NOP_4" := by
  have handed : (empty.answerAll crossedRequests).1 =
      ["NOP", "NOP_1", "NOP_1_1", "NOP_2", "EXT_NOP", "EXT_NOP_1", "NOP_3", "NOP_4"] := by
    decide +kernel
  obtain ⟨-, distinct, each⟩ := answerAll_firstFree crossedRequests
  have last := (each 7 (.plain "NOP") "NOP_4" rfl (by rw [handed]; rfl)).firstFree
  rw [handed] at last
  exact ⟨handed, distinct, last⟩

end TypeNames

end DspIsa.Generated
