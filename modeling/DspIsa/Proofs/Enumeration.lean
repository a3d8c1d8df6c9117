import Mathlib.Data.List.Forall2

/-! Lists that name every item standing somewhere, once and in the order of the places. Such lists
are put behind one another, and their places are moved. -/
namespace DspIsa

/-- The items that stand at some place, one for each such place and in the order of the places. -/
def Listed {Place Item : Type} (before : Place → Place → Prop) (stands : Place → Item → Prop)
    (items : List Item) : Prop :=
  ∃ places : List Place, places.Pairwise before ∧
    (∀ place, place ∈ places ↔ ∃ item, stands place item) ∧ List.Forall₂ stands places items

namespace Listed

variable {Place Item : Type} {before : Place → Place → Prop} {stands : Place → Item → Prop}
  {items : List Item}

theorem congr {others : Place → Item → Prop} (listed : Listed before stands items)
    (same : ∀ place item, stands place item ↔ others place item) :
    Listed before others items := by
  have equal : stands = others := funext fun place => funext fun item => propext (same place item)
  rwa [equal] at listed

theorem nil (nothing : ∀ place item, ¬ stands place item) : Listed before stands [] := by
  refine ⟨[], .nil, fun place => ?_, .nil⟩
  simp [nothing place]

/-- What stands in front is listed in front. -/
theorem append {others : Place → Item → Prop} {more : List Item}
    (front : Listed before stands items) (back : Listed before others more)
    (ordered : ∀ place item other later, stands place item → others other later →
      before place other) :
    Listed before (fun place item => stands place item ∨ others place item) (items ++ more) := by
  obtain ⟨places, ascending, exactly, pairs⟩ := front
  obtain ⟨behind, climbing, only, couples⟩ := back
  refine ⟨places ++ behind, ?_, fun place => ?_, ?_⟩
  · refine List.pairwise_append.mpr ⟨ascending, climbing, fun place member other later => ?_⟩
    obtain ⟨item, here⟩ := (exactly place).mp member
    obtain ⟨last, there⟩ := (only other).mp later
    exact ordered place item other last here there
  · rw [List.mem_append, exactly, only, exists_or]
  · exact List.rel_append (pairs.imp fun _ _ => .inl) (couples.imp fun _ _ => .inr)

/-- Places that are moved without changing their order. -/
theorem mapPlace {Other : Type} (after : Other → Other → Prop) (move : Place → Other)
    (kept : ∀ place other, before place other → after (move place) (move other))
    (listed : Listed before stands items) :
    Listed after (fun place item => ∃ origin, move origin = place ∧ stands origin item) items := by
  obtain ⟨places, ascending, exactly, pairs⟩ := listed
  refine ⟨places.map move, ?_, fun place => ?_, ?_⟩
  · exact List.pairwise_map.mpr (ascending.imp fun {first second} => kept first second)
  · rw [List.mem_map]
    constructor
    · rintro ⟨origin, member, rfl⟩
      obtain ⟨item, here⟩ := (exactly origin).mp member
      exact ⟨item, origin, rfl, here⟩
    · rintro ⟨item, origin, rfl, here⟩
      exact ⟨origin, (exactly origin).mpr ⟨item, here⟩, rfl⟩
  · rw [List.forall₂_map_left_iff]
    exact pairs.imp fun origin item here => ⟨origin, rfl, here⟩

theorem single (place : Place) (item : Item) :
    Listed before (fun other result => other = place ∧ result = item) [item] := by
  refine ⟨[place], List.pairwise_singleton _ _, fun other => ?_, ?_⟩
  · simp
  · exact .cons ⟨rfl, rfl⟩ .nil

/-- The chosen items of a list stand at their positions. -/
theorem filterMap {Result : Type} (choose : Item → Option Result) (items : List Item) :
    Listed (· < ·) (fun (index : Nat) result => ∃ item, items[index]? = some item ∧
      choose item = some result) (items.filterMap choose) := by
  induction items with
  | nil => exact .nil (by simp)
  | cons item rest ih =>
    have later : Listed (· < ·) (fun (index : Nat) result => ∃ origin, origin + 1 = index ∧
        ∃ item, rest[origin]? = some item ∧ choose item = some result)
          (rest.filterMap choose) :=
      ih.mapPlace (· < ·) (· + 1) fun _ _ below => Nat.succ_lt_succ below
    cases chosen : choose item with
    | none =>
      rw [List.filterMap_cons_none chosen]
      refine later.congr fun index result => ?_
      cases index with
      | zero => simp [chosen]
      | succ index => simp
    | some result =>
      rw [List.filterMap_cons_some chosen]
      have whole := (single 0 result).append later (by
        rintro _ _ _ _ ⟨rfl, -⟩ ⟨origin, rfl, -⟩
        exact Nat.succ_pos origin)
      refine whole.congr fun index other => ?_
      cases index with
      | zero => simp [chosen, eq_comm]
      | succ index => simp

end Listed

/-- The order of pairs by their first and then by their second number. -/
def Earlier (place other : Nat × Nat) : Prop :=
  place.1 < other.1 ∨ place.1 = other.1 ∧ place.2 < other.2

/-- A first row of items is listed in front of the rows behind it. -/
theorem Listed.row {Item : Type} {first : Nat → Item → Prop}
    {later stands : Nat × Nat → Item → Prop} {items more : List Item}
    (front : Listed (· < ·) first items) (back : Listed Earlier later more)
    (head : ∀ index item, stands (0, index) item ↔ first index item)
    (tail : ∀ number index item, stands (number + 1, index) item ↔ later (number, index) item) :
    Listed Earlier stands (items ++ more) := by
  have top := front.mapPlace Earlier (fun index => (0, index))
    fun _ _ below => .inr ⟨rfl, below⟩
  have bottom := back.mapPlace Earlier (fun origin => (origin.1 + 1, origin.2))
    fun _ _ earlier => earlier.imp Nat.succ_lt_succ fun same => ⟨by rw [same.1], same.2⟩
  have whole := top.append bottom (by
    rintro _ _ _ _ ⟨index, rfl, -⟩ ⟨origin, rfl, -⟩
    exact .inl (Nat.succ_pos _))
  refine whole.congr fun place item => ?_
  obtain ⟨number, index⟩ := place
  cases number with
  | zero => simp [head]
  | succ number => simp [tail]

end DspIsa
