import DspIsa.Generated.Assembly
import DspIsa.Proofs.ByteOwners

/-! Runs of bytes with one owner. Grouping ascending bytes loses none of them and leaves no two runs
of one owner that touch. -/
namespace DspIsa.Generated.ByteRun

def Contains (run : ByteRun) (byte : Nat) : Prop := run.first ≤ byte ∧ byte ≤ run.last

/-- The longest runs of ascending bytes, in the order of the bytes. -/
structure Groups (runs : List ByteRun) (covered : List (Nat × Nat)) : Prop where
  filled : ∀ run ∈ runs, run.first ≤ run.last
  ascending : runs.Pairwise fun run later => run.last < later.first
  apart : runs.Pairwise fun run later => run.owner = later.owner → run.last + 1 ≠ later.first
  covers : ∀ byte owner,
    (byte, owner) ∈ covered ↔ ∃ run ∈ runs, run.Contains byte ∧ run.owner = owner

variable {covered : List (Nat × Nat)} {runs : List ByteRun} {byte owner : Nat}

theorem Groups.nil : Groups [] [] := ⟨by simp, .nil, .nil, by simp⟩

/-- The ends of a run are among the bytes. -/
theorem Groups.mem_first (groups : Groups runs covered) {run : ByteRun} (member : run ∈ runs) :
    (run.first, run.owner) ∈ covered :=
  (groups.covers _ _).mpr ⟨run, member, ⟨Nat.le_refl _, groups.filled run member⟩, rfl⟩

theorem Groups.mem_last (groups : Groups runs covered) {run : ByteRun} (member : run ∈ runs) :
    (run.last, run.owner) ∈ covered :=
  (groups.covers _ _).mpr ⟨run, member, ⟨groups.filled run member, Nat.le_refl _⟩, rfl⟩

/-- A byte that does not continue the first run is a run of its own. -/
theorem Groups.alone (groups : Groups runs covered)
    (below : ∀ entry ∈ covered, byte < entry.1)
    (broken : ∀ run ∈ runs.head?, run.owner = owner → byte + 1 ≠ run.first) :
    Groups (⟨byte, byte, owner⟩ :: runs) ((byte, owner) :: covered) := by
  have before (run : ByteRun) (member : run ∈ runs) : byte < run.first :=
    below _ (groups.mem_first member)
  refine ⟨?_, ?_, ?_, fun other mine => ?_⟩
  · exact List.forall_mem_cons.mpr ⟨Nat.le_refl _, groups.filled⟩
  · exact List.pairwise_cons.mpr ⟨before, groups.ascending⟩
  · refine List.pairwise_cons.mpr ⟨fun run member same touching => ?_, groups.apart⟩
    cases runs with
    | nil => cases member
    | cons head rest =>
      rcases List.mem_cons.mp member with rfl | later
      · exact broken run rfl same.symm touching
      · -- a later run starts behind the first one, which starts behind the byte
        have next := List.rel_of_pairwise_cons groups.ascending later
        have filled := groups.filled head List.mem_cons_self
        have first := before head List.mem_cons_self
        simp only at touching
        omega
  · rw [List.mem_cons, groups.covers, List.exists_mem_cons_iff, Prod.mk.injEq]
    refine or_congr_left ⟨?_, ?_⟩
    · rintro ⟨rfl, rfl⟩
      exact ⟨⟨Nat.le_refl _, Nat.le_refl _⟩, rfl⟩
    · rintro ⟨⟨above, under⟩, same⟩
      exact ⟨Nat.le_antisymm under above, same.symm⟩

/-- A byte right in front of a run of its owner makes that run longer. -/
theorem Groups.joined {run : ByteRun} (groups : Groups (run :: runs) covered)
    (touching : byte + 1 = run.first) :
    Groups (⟨byte, run.last, run.owner⟩ :: runs) ((byte, run.owner) :: covered) := by
  obtain ⟨filled, ascending, apart, covers⟩ := groups
  obtain ⟨head, later⟩ := List.forall_mem_cons.mp filled
  refine ⟨List.forall_mem_cons.mpr ⟨?_, later⟩, ?_, ?_, fun other mine => ?_⟩
  · simp only
    omega
  · exact List.pairwise_cons.mpr (List.pairwise_cons.mp ascending)
  · exact List.pairwise_cons.mpr (List.pairwise_cons.mp apart)
  · rw [List.mem_cons, covers, List.exists_mem_cons_iff, List.exists_mem_cons_iff, ← or_assoc,
      Prod.mk.injEq]
    refine or_congr_left ⟨?_, ?_⟩
    · rintro (⟨rfl, rfl⟩ | ⟨⟨above, under⟩, same⟩)
      · exact ⟨⟨Nat.le_refl _, by simp only; omega⟩, rfl⟩
      · exact ⟨⟨by simp only; omega, under⟩, same⟩
    · rintro ⟨⟨above, under⟩, same⟩
      by_cases own : other = byte
      · exact .inl ⟨own, same.symm⟩
      · exact .inr ⟨⟨by simp only at above; omega, under⟩, same⟩

/-- Grouping ascending bytes gives their longest runs. -/
theorem groups_ofCovered (ascending : covered.Pairwise fun first second => first.1 < second.1) :
    Groups (ofCovered covered) covered := by
  induction covered with
  | nil => exact .nil
  | cons entry rest ih =>
    obtain ⟨byte, owner⟩ := entry
    obtain ⟨below, later⟩ := List.pairwise_cons.mp ascending
    have groups := ih later
    have text : ofCovered ((byte, owner) :: rest) = cons (byte, owner) (ofCovered rest) := rfl
    rw [text]
    generalize ofCovered rest = runs at groups ⊢
    cases runs with
    | nil => exact groups.alone below (by simp)
    | cons run runs =>
      rw [cons]
      split
      · rename_i continues
        obtain ⟨rfl, touching⟩ := continues
        exact groups.joined touching
      · rename_i broken
        refine groups.alone below fun head first same touching => broken ?_
        cases first
        exact ⟨same, touching⟩

end DspIsa.Generated.ByteRun
