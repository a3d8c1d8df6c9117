import DspIsa.Proofs.DispatchText

/-! The dispatch functions of a tree. No two have one name, all their names can be
read, and the arms of a table answer for its slots. -/
namespace DspIsa

/-- Induction on the tables of a tree. -/
@[elab_as_elim]
theorem DecisionNode.table_induction {motive : DecisionNode → Prop}
    (end_ : ∀ node : DecisionNode, Generated.isTable node = false → motive node)
    (table : ∀ mask slots, (∀ child ∈ slots, motive child) → motive (.table mask slots))
    (node : DecisionNode) : motive node := by
  match node with
  | .empty => exact end_ _ rfl
  | .leaf index => exact end_ _ rfl
  | .ambiguous indices => exact end_ _ rfl
  | .table mask slots =>
    refine table mask slots fun child member => ?_
    have := Array.sizeOf_lt_of_mem member
    exact table_induction end_ table child
termination_by sizeOf node

namespace Generated

theorem toList_tableName (number : Nat) :
    (tableName number).toList = "generated_table_".toList ++ Nat.toDigits 10 number := by
  have text : tableName number = "generated_table_" ++ number.repr := rfl
  rw [text, String.toList_append, Nat.toList_repr]

theorem tableName_injective : Function.Injective tableName := by
  intro first second same
  have chars := congrArg String.toList same
  rw [toList_tableName, toList_tableName] at chars
  exact toDigits_injective (List.append_cancel_left chars)

theorem isIdentifier_tableName (number : Nat) : IsIdentifier (tableName number) := by
  have front : IsIdentifier "generated_table_" :=
    isIdentifier_of_isAlpha rfl (by decide) (by decide)
  have text : tableName number = "generated_table_" ++ number.repr := rfl
  rw [text]
  refine front.append fun c member => ?_
  rw [Nat.toList_repr] at member
  exact isNameChar_of_isDigit (Nat.isDigit_of_mem_toDigits (by decide) (by decide) member)

theorem isIdentifier_rootName : IsIdentifier rootName :=
  isIdentifier_of_isAlpha rfl (by decide) (by decide)

/-- The first character tells the names of tables from every other name in use. -/
theorem head?_tableName (number : Nat) : (tableName number).toList.head? = some 'g' := by
  rw [toList_tableName]
  rfl

theorem tableName_ne_rootName (number : Nat) : tableName number ≠ rootName := by
  intro same
  have heads := head?_tableName number
  rw [same] at heads
  exact absurd heads (by decide)

theorem tableName_ne_family (number : Nat) : tableName number ≠ "DspInstruction" := by
  intro same
  have heads := head?_tableName number
  rw [same] at heads
  exact absurd heads (by decide)

section Arms

variable {family : Family} {entries others tables more : List (DecisionNode × Nat)} {slot : Nat}

/-- What the arms of a table answer for a slot: nested tables are called by their numbers. -/
inductive Answers (family : Family) (entries tables : List (DecisionNode × Nat)) (slot : Nat) :
    Option ArmBody → Prop where
  | leaf {index : Nat} (listed : (.leaf index, slot) ∈ entries) :
      Answers family entries tables slot
        (some (.construct (family.types[index]?.getD family.nop)))
  | table {mask : Word} {slots : Array DecisionNode} {own : Nat}
      (listed : (.table mask slots, slot) ∈ entries)
      (numbered : (.table mask slots, own) ∈ tables) :
      Answers family entries tables slot (some (.call (tableName own)))
  | missing (free : ∀ node, (node, slot) ∈ entries → node.isOccupied = false) :
      Answers family entries tables slot none

/-- An entry in front that has no arm for the slot changes nothing. -/
theorem Answers.cons {entry : DecisionNode × Nat} {answer : Option ArmBody}
    (answers : Answers family entries tables slot answer)
    (silent : entry.2 = slot → entry.1.isOccupied = false)
    (kept : ∀ table ∈ tables, table ∈ more) :
    Answers family (entry :: entries) more slot answer := by
  cases answers with
  | leaf listed => exact .leaf (List.mem_cons_of_mem _ listed)
  | table listed numbered => exact .table (List.mem_cons_of_mem _ listed) (kept _ numbered)
  | missing free =>
    refine .missing fun node listed => ?_
    rcases List.mem_cons.mp listed with rfl | later
    · exact silent rfl
    · exact free node later

theorem answers_arms (family : Family) (number : Nat) (entries : List (DecisionNode × Nat))
    (slot : Nat) :
    Answers family entries (((entries.map Prod.fst).filter isTable).zipIdx (number + 1)) slot
      (((arms family number entries).find? (·.index == slot)).map (·.body)) := by
  induction entries generalizing number with
  | nil => exact .missing (by simp)
  | cons entry entries ih =>
    obtain ⟨node, place⟩ := entry
    cases node with
    | empty => exact (ih number).cons (fun _ => rfl) fun _ listed => listed
    | ambiguous indices => exact (ih number).cons (fun _ => rfl) fun _ listed => listed
    | leaf index =>
      rw [arms]
      by_cases here : place = slot
      · subst here
        rw [List.find?_cons_of_pos (by simp)]
        exact .leaf List.mem_cons_self
      · rw [List.find?_cons_of_neg (by simpa using here)]
        exact (ih number).cons (fun same => absurd same here) fun _ listed => listed
    | table mask slots =>
      have numbers : ((((.table mask slots, place) :: entries).map Prod.fst).filter
          isTable).zipIdx (number + 1) = (.table mask slots, number + 1) ::
            ((entries.map Prod.fst).filter isTable).zipIdx (number + 1 + 1) := rfl
      rw [arms, numbers]
      by_cases here : place = slot
      · subst here
        rw [List.find?_cons_of_pos (by simp)]
        exact .table List.mem_cons_self List.mem_cons_self
      · rw [List.find?_cons_of_neg (by simpa using here)]
        exact (ih (number + 1)).cons (fun same => absurd same here)
          fun _ listed => List.mem_cons_of_mem _ listed

theorem mem_occupied {slots : Array DecisionNode} {node : DecisionNode} :
    (node, slot) ∈ DecisionNode.occupied slots ↔
      slots[slot]? = some node ∧ node.isOccupied = true := by
  rw [DecisionNode.occupied, List.mem_filter, List.mk_mem_zipIdx_iff_getElem?,
    Array.getElem?_toList]

theorem nested_eq (number : Nat) (slots : Array DecisionNode) :
    nested number slots =
      (((DecisionNode.occupied slots).map Prod.fst).filter isTable).zipIdx (number + 1) := by
  have tables : ((DecisionNode.occupied slots).map Prod.fst).filter isTable =
      slots.toList.filter isTable := by
    have places : (slots.toList.zipIdx.map Prod.fst) = slots.toList := List.zipIdx_map_fst 0 _
    have occupied : (DecisionNode.occupied slots).map Prod.fst =
        slots.toList.filter DecisionNode.isOccupied := by
      conv => rhs; rw [← places, List.filter_map]
      rfl
    rw [occupied, List.filter_filter]
    apply List.filter_congr
    intro node _
    cases node <;> rfl
  rw [nested, tables]

end Arms

section Functions

variable {family : Family}

/-- The functions of numbered tables, one table after the other, and the last number in use. -/
def functionsBelow (family : Family) (used : Nat) :
    List (DecisionNode × Nat) → List DispatchFunction × Nat
  | [] => ([], used)
  | (child, own) :: rest =>
    let here := tableFunctions family (tableName own) false used child
    let others := functionsBelow family here.2 rest
    (here.1 ++ others.1, others.2)

theorem foldl_tableFunctions (family : Family) (entries : List (DecisionNode × Nat))
    (front : List DispatchFunction) (used : Nat) :
    entries.foldl (fun state entry =>
        let made := tableFunctions family (tableName entry.2) false state.2 entry.1
        (state.1 ++ made.1, made.2)) (front, used) =
      (front ++ (functionsBelow family used entries).1,
        (functionsBelow family used entries).2) := by
  induction entries generalizing front used with
  | nil => simp [functionsBelow]
  | cons entry entries ih =>
    rw [List.foldl_cons, ih, functionsBelow, List.append_assoc]

theorem tableFunctions_table (name : String) (isPublic : Bool) (number : Nat) (mask : Word)
    (slots : Array DecisionNode) :
    tableFunctions family name isPublic number (.table mask slots) =
      (⟨name, isPublic, .dispatch (indexBits mask)
          (arms family number (DecisionNode.occupied slots)) family.nop⟩ ::
        (functionsBelow family (number + (nested number slots).length) (nested number slots)).1,
      (functionsBelow family (number + (nested number slots).length) (nested number slots)).2) := by
  have whole := foldl_tableFunctions family (nested number slots) []
    (number + (nested number slots).length)
  rw [← List.foldl_attach, List.nil_append] at whole
  rw [tableFunctions]
  exact congrArg (fun below : List DispatchFunction × Nat => (_ :: below.1, below.2)) whole

/-- Names of tables whose numbers are new: each number comes once, and it is one of `own` or lies
behind `used` up to `last`. -/
structure Numbered (own : List Nat) (used last : Nat) (names : List String) : Prop where
  grows : used ≤ last
  fresh : ∃ numbers : List Nat, names = numbers.map tableName ∧ numbers.Nodup ∧
    ∀ number ∈ numbers, number ∈ own ∨ used < number ∧ number ≤ last

theorem Numbered.cons {own : List Nat} {used between last number : Nat}
    {below others : List String} (first : Numbered [] used between below)
    (later : Numbered own between last others) (new : number ∉ own)
    (bound : ∀ other ∈ number :: own, other ≤ used) :
    Numbered (number :: own) used last (tableName number :: below ++ others) := by
  obtain ⟨inner, rfl, innerOnce, innerFresh⟩ := first.fresh
  obtain ⟨outer, rfl, outerOnce, outerFresh⟩ := later.fresh
  have lower := first.grows
  have upper := later.grows
  have within : ∀ other ∈ inner, used < other ∧ other ≤ between := fun other member =>
    (innerFresh other member).resolve_left List.not_mem_nil
  refine ⟨Nat.le_trans lower upper, number :: inner ++ outer, by simp, ?_, ?_⟩
  · rw [List.nodup_append, List.nodup_cons]
    refine ⟨⟨fun repeated => ?_, innerOnce⟩, outerOnce, ?_⟩
    · have place := within number repeated
      have small := bound number List.mem_cons_self
      omega
    · rintro this member other listed rfl
      rcases outerFresh this listed with ours | ⟨above, -⟩
      · rcases List.mem_cons.mp member with rfl | deep
        · exact new ours
        · have place := within this deep
          have small := bound this (List.mem_cons_of_mem _ ours)
          omega
      · rcases List.mem_cons.mp member with rfl | deep
        · have small := bound this List.mem_cons_self
          omega
        · have place := within this deep
          omega
  · intro other member
    rw [List.cons_append, List.mem_cons, List.mem_append] at member
    rcases member with rfl | deep | behind
    · exact .inl List.mem_cons_self
    · have place := within other deep
      exact .inr ⟨place.1, by omega⟩
    · rcases outerFresh other behind with ours | ⟨above, below⟩
      · exact .inl (List.mem_cons_of_mem _ ours)
      · exact .inr ⟨by omega, below⟩

/-- Numbers in use stay in use when the own ones are the next behind them. -/
theorem Numbered.shift {own : List Nat} {number count last : Nat} {names : List String}
    (named : Numbered own (number + count) last names)
    (next : ∀ other ∈ own, number < other ∧ other ≤ number + count) :
    Numbered [] number last names := by
  obtain ⟨numbers, rfl, once, fresh⟩ := named.fresh
  have grows := named.grows
  refine ⟨by omega, numbers, rfl, once, fun other member => .inr ?_⟩
  rcases fresh other member with ours | ⟨above, below⟩
  · have place := next other ours
    omega
  · omega

theorem mem_nested_iff {number own : Nat} {slots : Array DecisionNode} {child : DecisionNode}
    (member : (child, own) ∈ nested number slots) :
    isTable child = true ∧ number < own ∧ own ≤ number + (nested number slots).length := by
  have table := (List.mem_filter.mp (List.fst_mem_of_mem_zipIdx member)).2
  have place := List.mk_mem_zipIdx_iff_le_and_getElem?_sub.mp member
  have inside := (List.getElem?_eq_some_iff.mp place.2).1
  rw [nested, List.length_zipIdx]
  exact ⟨table, by omega, by omega⟩

/-- Induction on the tables of a tree, from the nested ones of a table to the table. -/
@[elab_as_elim]
theorem isTable_induction {motive : (node : DecisionNode) → isTable node = true → Prop}
    (table : ∀ mask slots, (∀ (number : Nat) (entry : DecisionNode × Nat)
      (member : entry ∈ nested number slots), motive entry.1 (mem_nested_iff member).1) →
        motive (.table mask slots) rfl)
    (node : DecisionNode) (inner : isTable node = true) : motive node inner := by
  induction node using DecisionNode.table_induction with
  | end_ node last =>
    rw [last] at inner
    cases inner
  | table mask slots ih =>
    exact table mask slots fun number entry member =>
      ih entry.1 (mem_of_mem_nested member) (mem_nested_iff member).1

/-- The functions of a table have its own name first, then new ones. -/
def NamesApart (family : Family) (node : DecisionNode) : Prop :=
  ∀ name isPublic number, ∃ below,
    (tableFunctions family name isPublic number node).1.map (·.name) = name :: below ∧
      Numbered [] number (tableFunctions family name isPublic number node).2 below

theorem numbered_functionsBelow (family : Family) {entries : List (DecisionNode × Nat)}
    (apart : ∀ entry ∈ entries, NamesApart family entry.1) (once : (entries.map Prod.snd).Nodup)
    {used : Nat} (bound : ∀ own ∈ entries.map Prod.snd, own ≤ used) :
    Numbered (entries.map Prod.snd) used (functionsBelow family used entries).2
      ((functionsBelow family used entries).1.map (·.name)) := by
  induction entries generalizing used with
  | nil => exact ⟨Nat.le_refl _, [], rfl, List.nodup_nil, by simp⟩
  | cons entry entries ih =>
    obtain ⟨head, later⟩ := List.forall_mem_cons.mp apart
    obtain ⟨new, rest⟩ := List.nodup_cons.mp once
    obtain ⟨below, names, first⟩ := head (tableName entry.2) false used
    have others := ih later rest fun own member =>
      Nat.le_trans (bound own (List.mem_cons_of_mem _ member)) first.grows
    rw [functionsBelow, List.map_append, names]
    exact first.cons others new bound

theorem namesApart_of_isTable (family : Family) (node : DecisionNode)
    (inner : isTable node = true) : NamesApart family node := by
  induction node, inner using isTable_induction with
  | table mask slots ih =>
    intro name isPublic number
    rw [tableFunctions_table]
    have once : ((nested number slots).map Prod.snd).Nodup := by
      rw [nested, List.zipIdx_map_snd]
      exact List.nodup_range'
    have places (own : Nat) (member : own ∈ (nested number slots).map Prod.snd) :
        number < own ∧ own ≤ number + (nested number slots).length := by
      obtain ⟨entry, listed, rfl⟩ := List.mem_map.mp member
      exact (mem_nested_iff listed).2
    have below := numbered_functionsBelow family (ih number) once
      fun own member => (places own member).2
    exact ⟨_, rfl, below.shift places⟩

/-- A family all of whose types can be read. -/
structure Family.Legible (family : Family) : Prop where
  types : ∀ type ∈ family.types, Source.Legible type
  nop : Source.Legible family.nop

theorem Family.Follows.legible {instructions : List Instruction}
    (follows : family.Follows instructions) : family.Legible := by
  have legible (type : OpcodeType) (member : type ∈ family.types) : Source.Legible type :=
    ⟨follows.named.isName type member, fun _ listed => follows.isIdentifier_field member listed⟩
  exact ⟨legible, legible _ follows.named.nop⟩

theorem Family.Legible.getD (legible : family.Legible) (index : Nat) :
    Source.Legible (family.types[index]?.getD family.nop) := by
  cases found : family.types[index]? with
  | none => exact legible.nop
  | some type => exact legible.types type (List.mem_of_getElem? found)

theorem legibleArm_of_mem_arms (legible : family.Legible) {number : Nat}
    {entries : List (DecisionNode × Nat)} :
    ∀ arm ∈ arms family number entries, Source.LegibleArm arm.body := by
  induction entries generalizing number with
  | nil => simp [arms]
  | cons entry entries ih =>
    obtain ⟨node, slot⟩ := entry
    cases node with
    | empty => exact ih
    | ambiguous indices => exact ih
    | leaf index => exact List.forall_mem_cons.mpr ⟨legible.getD index, ih⟩
    | table mask slots =>
      exact List.forall_mem_cons.mpr
        ⟨⟨isIdentifier_tableName (number + 1), tableName_ne_family (number + 1)⟩, ih⟩

theorem legible_functionsBelow {entries : List (DecisionNode × Nat)} {used : Nat}
    (each : ∀ entry ∈ entries, ∀ own number,
      ∀ content ∈ (tableFunctions family (tableName own) false number entry.1).1,
        Source.LegibleFunction content) :
    ∀ content ∈ (functionsBelow family used entries).1, Source.LegibleFunction content := by
  induction entries generalizing used with
  | nil => simp [functionsBelow]
  | cons entry entries ih =>
    obtain ⟨head, later⟩ := List.forall_mem_cons.mp each
    rw [functionsBelow]
    exact List.forall_mem_append.mpr ⟨head entry.2 used, ih later⟩

theorem legible_tableFunctions (legible : family.Legible) (node : DecisionNode) {name : String}
    (identifier : IsIdentifier name) (isPublic : Bool) (number : Nat) :
    ∀ content ∈ (tableFunctions family name isPublic number node).1,
      Source.LegibleFunction content := by
  induction node using DecisionNode.table_induction generalizing name isPublic number with
  | end_ node last =>
    cases node with
    | table mask slots => cases last
    | _ => simp [tableFunctions]
  | table mask slots ih =>
    rw [tableFunctions_table]
    refine List.forall_mem_cons.mpr ⟨⟨identifier, ?_, legible.nop.ident⟩, ?_⟩
    · exact legibleArm_of_mem_arms legible
    · refine legible_functionsBelow fun entry member own number => ?_
      exact ih entry.1 (mem_of_mem_nested member) (isIdentifier_tableName own) false number

/-- No two functions of a tree have one name. -/
theorem nodup_treeFunctions (family : Family) (node : DecisionNode) :
    ((treeFunctions family node).map (·.name)).Nodup := by
  cases node with
  | table mask slots =>
    obtain ⟨below, names, named⟩ := namesApart_of_isTable family (.table mask slots) rfl rootName
      true 0
    obtain ⟨numbers, rfl, once, -⟩ := named.fresh
    rw [treeFunctions, names, List.nodup_cons]
    refine ⟨fun repeated => ?_, once.map tableName_injective⟩
    obtain ⟨number, -, same⟩ := List.mem_map.mp repeated
    exact tableName_ne_rootName number same
  | _ => exact List.nodup_singleton rootName

theorem legible_treeFunctions (legible : family.Legible) (node : DecisionNode) :
    ∀ content ∈ treeFunctions family node, Source.LegibleFunction content := by
  cases node with
  | table mask slots => exact legible_tableFunctions legible _ isIdentifier_rootName true 0
  | leaf index => exact List.forall_mem_singleton.mpr ⟨isIdentifier_rootName, legible.getD index⟩
  | _ => exact List.forall_mem_singleton.mpr ⟨isIdentifier_rootName, legible.nop.ident⟩

end Functions

end Generated

end DspIsa
