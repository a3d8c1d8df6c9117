import DspIsa.Proofs.Descent
import DspIsa.Proofs.DispatchFunctions
import DspIsa.Proofs.DispatchHeads
import Mathlib.Data.List.Forall2
import Mathlib.Data.List.Perm.Subperm

/-! The dispatch functions of a tree in the order of its tables: each before those below it, and
these in slot order. The numbers in their names are handed out in another order, one table after
the other, and each nested function is called from the arm of its own table. -/
namespace DspIsa

namespace DecisionNode

/-- The tables of a tree, each before the tables below it, and these in slot order. -/
def tables : DecisionNode → List DecisionNode
  | .table mask slots => .table mask slots :: (slots.map tables).toList.flatten
  | _ => []

theorem tables_table (mask : Word) (slots : Array DecisionNode) :
    (table mask slots).tables = table mask slots :: slots.toList.flatMap tables := by
  rw [tables, Array.toList_map, List.flatMap_def]

theorem tables_eq_nil {node : DecisionNode} (last : Generated.isTable node = false) :
    node.tables = [] := by
  cases node with
  | table mask slots => cases last
  | _ => simp [tables]

theorem tableCount_eq_zero {node : DecisionNode} (last : Generated.isTable node = false) :
    node.tableCount = 0 := by
  cases node with
  | table mask slots => cases last
  | _ => simp [tableCount]

theorem length_tables (node : DecisionNode) : node.tables.length = node.tableCount := by
  induction node using DecisionNode.table_induction with
  | end_ node last => rw [tables_eq_nil last, tableCount_eq_zero last, List.length_nil]
  | table mask slots ih =>
    have same : slots.toList.map (fun child => child.tables.length) =
        slots.toList.map tableCount :=
      List.map_congr_left fun child member => ih child (Array.mem_def.mpr member)
    rw [tables_table, List.length_cons, List.length_flatMap, same, tableCount, Array.toList_map,
      List.sum_eq_foldl, Nat.add_comm]

theorem mem_leaves_table {mask : Word} {slots : Array DecisionNode} {child : DecisionNode}
    (member : child ∈ slots) {index : Nat} (leaf : index ∈ child.leaves) :
    index ∈ (table mask slots).leaves := by
  rw [leaves, Array.toList_map, ← List.flatMap_def]
  exact List.mem_flatMap.mpr ⟨child, Array.mem_def.mp member, leaf⟩

end DecisionNode

namespace Generated

/-- Only the nested tables of a table hold more tables. -/
theorem flatMap_tables_nested (number : Nat) (slots : Array DecisionNode) :
    (nested number slots).flatMap (fun entry => entry.1.tables) =
      slots.toList.flatMap DecisionNode.tables := by
  have kept : (slots.toList.filter isTable).flatMap DecisionNode.tables =
      slots.toList.flatMap DecisionNode.tables := by
    induction slots.toList with
    | nil => rfl
    | cons node rest ih =>
      rw [List.filter_cons, List.flatMap_cons]
      split
      · rw [List.flatMap_cons, ih]
      · rename_i last
        rw [DecisionNode.tables_eq_nil ((Bool.not_eq_true _).mp last), ih, List.nil_append]
  rw [← kept, nested]
  conv => rhs; rw [← List.zipIdx_map_fst (number + 1) (slots.toList.filter isTable)]
  rw [List.flatMap_map]

theorem tables_table (number : Nat) (mask : Word) (slots : Array DecisionNode) :
    (DecisionNode.table mask slots).tables = .table mask slots ::
      (nested number slots).flatMap fun entry => entry.1.tables := by
  rw [DecisionNode.tables_table, flatMap_tables_nested]

section Counting

variable {family : Family}

/-- There is one function for each table of the node, and all but the first have new numbers. -/
def Counted (family : Family) (node : DecisionNode) : Prop :=
  ∀ name isPublic number,
    (tableFunctions family name isPublic number node).1.length = node.tables.length ∧
      (tableFunctions family name isPublic number node).2 + 1 = number + node.tables.length

theorem counted_functionsBelow {entries : List (DecisionNode × Nat)}
    (each : ∀ entry ∈ entries, Counted family entry.1) (used : Nat) :
    (functionsBelow family used entries).1.length =
        (entries.flatMap fun entry => entry.1.tables).length ∧
      (functionsBelow family used entries).2 + entries.length =
        used + (entries.flatMap fun entry => entry.1.tables).length := by
  induction entries generalizing used with
  | nil => exact ⟨rfl, rfl⟩
  | cons entry entries ih =>
    obtain ⟨head, later⟩ := List.forall_mem_cons.mp each
    obtain ⟨here, next⟩ := head (tableName entry.2) false used
    obtain ⟨size, last⟩ := ih later (tableFunctions family (tableName entry.2) false used entry.1).2
    simp only [functionsBelow, List.length_append, List.flatMap_cons, List.length_cons]
    omega

theorem counted_of_isTable (family : Family) (node : DecisionNode) (inner : isTable node = true) :
    Counted family node := by
  induction node, inner using isTable_induction with
  | table mask slots ih =>
    intro name isPublic number
    obtain ⟨size, last⟩ :=
      counted_functionsBelow (ih number) (number + (nested number slots).length)
    rw [tableFunctions_table, tables_table number, List.length_cons, List.length_cons]
    constructor
    · rw [size]
    · dsimp only
      omega

/-- The names of the nested functions of a tree with so many tables. -/
def nestedNames (count : Nat) : List String := (List.range' 1 (count - 1)).map tableName

/-- The names of the functions of a tree: the entry function and one number for each table below
the root, every number up to that of the last one. -/
theorem perm_names (family : Family) (node : DecisionNode) :
    ((treeFunctions family node).map (·.name)).Perm (rootName :: nestedNames node.tableCount) := by
  cases node with
  | table mask slots =>
    obtain ⟨size, last⟩ := counted_of_isTable family (.table mask slots) rfl rootName true 0
    obtain ⟨below, names, named⟩ :=
      namesApart_of_isTable family (.table mask slots) rfl rootName true 0
    obtain ⟨numbers, rfl, once, fresh⟩ := named.fresh
    have count := congrArg List.length names
    rw [List.length_map, List.length_cons, List.length_map, size] at count
    rw [treeFunctions, names, nestedNames, ← DecisionNode.length_tables]
    refine (List.Perm.map tableName ?_).cons rootName
    refine (once.subperm fun number member => ?_).perm_of_length_le (by simp; omega)
    have place := (fresh number member).resolve_left List.not_mem_nil
    rw [List.mem_range'_1]
    omega
  | _ =>
    rw [DecisionNode.tableCount_eq_zero rfl]
    exact .refl _

theorem length_treeFunctions (family : Family) (node : DecisionNode) :
    (treeFunctions family node).length = max 1 node.tableCount := by
  have size := (perm_names family node).length_eq
  rw [List.length_map, List.length_cons, nestedNames, List.length_map, List.length_range'] at size
  omega

end Counting

namespace Source

def Outcome.call? : Outcome → Option String
  | .call function => some function
  | _ => none

/-- The functions that a function calls, once for each call in its text. -/
def Function.calls (function : Function) : List String :=
  match function.body with
  | .value result => result.call?.toList
  | .dispatch _ arms otherwise =>
    arms.filterMap (fun arm => arm.2.call?) ++ otherwise.call?.toList

/-- The arm for a slot of a table: it builds the type of the instruction at a leaf, and calls the
function that is paired with a nested table. -/
inductive ArmFor (family : Family) (pairs : List (DecisionNode × Function)) :
    DecisionNode × Nat → Nat × Outcome → Prop where
  | leaf {index slot : Nat} {type : OpcodeType} (found : family.types[index]? = some type) :
      ArmFor family pairs (.leaf index, slot) (slot, .construct type.ident type.fields)
  | table {mask : Word} {slots : Array DecisionNode} {slot : Nat} {callee : Function}
      (paired : (.table mask slots, callee) ∈ pairs) :
      ArmFor family pairs (.table mask slots, slot) (slot, .call callee.name)

/-- A function dispatches on the mask of a table, with one arm for each slot that leads somewhere,
in slot order, and with the default value of the no-op for all other words. -/
inductive Renders (family : Family) (pairs : List (DecisionNode × Function)) :
    DecisionNode → Function → Prop where
  | table {mask : Word} {slots : Array DecisionNode} {name : String} {arms : List (Nat × Outcome)}
      (each : List.Forall₂ (ArmFor family pairs) (DecisionNode.occupied slots) arms) :
      Renders family pairs (.table mask slots)
        ⟨name, .dispatch (indexBits mask) arms (.default family.nop.ident)⟩

end Source

section Calls

variable {family : Family}

/-- The arms of a table call its nested tables in slot order, each once. -/
theorem calls_arms (family : Family) (number : Nat) (entries : List (DecisionNode × Nat)) :
    (arms family number entries).filterMap (fun arm => (Source.Outcome.ofArmBody arm.body).call?) =
      (((entries.map Prod.fst).filter isTable).zipIdx (number + 1)).map
        fun entry => tableName entry.2 := by
  induction entries generalizing number with
  | nil => rfl
  | cons entry entries ih =>
    obtain ⟨node, slot⟩ := entry
    cases node with
    | empty => exact ih number
    | leaf index => exact ih number
    | ambiguous indices => exact ih number
    | table mask slots => exact congrArg _ (ih (number + 1))

/-- The functions that the functions of a tree call. -/
def callsOf (contents : List DispatchFunction) : List String :=
  (contents.map Source.Function.ofDispatchFunction).flatMap Source.Function.calls

/-- The functions of the node are its own and those that are called, each once. -/
def Called (family : Family) (node : DecisionNode) : Prop :=
  ∀ name isPublic number,
    ((tableFunctions family name isPublic number node).1.map (·.name)).Perm
      (name :: callsOf (tableFunctions family name isPublic number node).1)

theorem perm_functionsBelow {entries : List (DecisionNode × Nat)}
    (each : ∀ entry ∈ entries, Called family entry.1) (used : Nat) :
    ((functionsBelow family used entries).1.map (·.name)).Perm
      (entries.map (fun entry => tableName entry.2) ++
        callsOf (functionsBelow family used entries).1) := by
  induction entries generalizing used with
  | nil => exact .refl _
  | cons entry entries ih =>
    obtain ⟨head, later⟩ := List.forall_mem_cons.mp each
    have here := head (tableName entry.2) false used
    have others := ih later (tableFunctions family (tableName entry.2) false used entry.1).2
    rw [functionsBelow, List.map_append, callsOf, List.map_append, List.flatMap_append,
      List.map_cons, List.cons_append]
    refine (here.append others).trans ?_
    rw [List.cons_append]
    refine .cons _ ?_
    -- the calls inside the first table change places with the names of the others
    rw [← List.append_assoc, ← List.append_assoc]
    exact List.perm_append_comm.append_right _

theorem called_of_isTable (family : Family) (node : DecisionNode) (inner : isTable node = true) :
    Called family node := by
  induction node, inner using isTable_induction with
  | table mask slots ih =>
    intro name isPublic number
    have below := perm_functionsBelow (ih number) (number + (nested number slots).length)
    have own : Source.Function.calls (.ofDispatchFunction ⟨name, isPublic, .dispatch
        (indexBits mask) (arms family number (DecisionNode.occupied slots)) family.nop⟩) =
          (nested number slots).map fun entry => tableName entry.2 := by
      rw [nested_eq, ← calls_arms family, Source.Function.calls]
      simp only [Source.Function.ofDispatchFunction, Source.Body.ofFunctionBody, List.filterMap_map]
      exact List.append_nil _
    rw [tableFunctions_table, callsOf, List.map_cons, List.map_cons, List.flatMap_cons, own]
    exact below.cons name

/-- Every nested function of a tree is called once. -/
theorem perm_calls (family : Family) (node : DecisionNode) :
    (callsOf (treeFunctions family node)).Perm (nestedNames node.tableCount) := by
  cases node with
  | table mask slots =>
    have called := called_of_isTable family (.table mask slots) rfl rootName true 0
    exact List.Perm.cons_inv (called.symm.trans (perm_names family (.table mask slots)))
  | _ =>
    rw [DecisionNode.tableCount_eq_zero rfl]
    exact .refl _

end Calls

section Order

variable {family : Family} {pairs : List (DecisionNode × Source.Function)}

/-- The text of the functions of the node, in order, renders its tables. -/
def Ordered (family : Family) (pairs : List (DecisionNode × Source.Function))
    (node : DecisionNode) : Prop :=
  (∀ index ∈ node.leaves, index < family.types.length) →
    ∀ name isPublic number, node.tables.zip ((tableFunctions family name isPublic number node).1.map
      Source.Function.ofDispatchFunction) ⊆ pairs →
      List.Forall₂ (Source.Renders family pairs) node.tables
        ((tableFunctions family name isPublic number node).1.map .ofDispatchFunction)

/-- The arms of a table are those for its slots if every nested table is paired with a function of
its name. -/
theorem forall₂_armFor {number : Nat} {entries : List (DecisionNode × Nat)}
    (occupied : ∀ entry ∈ entries, entry.1.isOccupied = true)
    (leaves : ∀ entry ∈ entries, ∀ index ∈ entry.1.leaves, index < family.types.length)
    (paired : ∀ entry ∈ ((entries.map Prod.fst).filter isTable).zipIdx (number + 1),
      ∃ callee, (entry.1, callee) ∈ pairs ∧ callee.name = tableName entry.2) :
    List.Forall₂ (Source.ArmFor family pairs) entries
      ((arms family number entries).map fun arm =>
        (arm.index, Source.Outcome.ofArmBody arm.body)) := by
  induction entries generalizing number with
  | nil => exact .nil
  | cons entry entries ih =>
    obtain ⟨node, slot⟩ := entry
    obtain ⟨leads, others⟩ := List.forall_mem_cons.mp occupied
    obtain ⟨inside, more⟩ := List.forall_mem_cons.mp leaves
    cases node with
    | empty => cases leads
    | ambiguous indices => cases leads
    | leaf index =>
      have found := List.getElem?_eq_getElem (inside index (by simp))
      rw [arms, found]
      exact .cons (.leaf found) (ih others more paired)
    | table mask slots =>
      obtain ⟨⟨callee, listed, named⟩, behind⟩ := List.forall_mem_cons.mp paired
      rw [arms, ← named]
      exact .cons (.table listed) (ih others more behind)

/-- Each listed table is paired with the first of its functions, which has its name. -/
theorem exists_callee {used : Nat} {entries : List (DecisionNode × Nat)}
    (each : ∀ entry ∈ entries, isTable entry.1 = true) {entry : DecisionNode × Nat}
    (member : entry ∈ entries) :
    ∃ callee, (entry.1, callee) ∈ (entries.flatMap fun entry => entry.1.tables).zip
        ((functionsBelow family used entries).1.map Source.Function.ofDispatchFunction) ∧
      callee.name = tableName entry.2 := by
  induction entries generalizing used with
  | nil => cases member
  | cons head rest ih =>
    obtain ⟨table, later⟩ := List.forall_mem_cons.mp each
    obtain ⟨size, -⟩ := counted_of_isTable family head.1 table (tableName head.2) false used
    rw [functionsBelow, List.flatMap_cons, List.map_append,
      List.zip_append (by rw [List.length_map, size])]
    rcases List.mem_cons.mp member with rfl | behind
    · obtain ⟨node, own⟩ := entry
      cases node with
      | table mask slots =>
        rw [tableFunctions_table, DecisionNode.tables_table]
        exact ⟨_, List.mem_append_left _ List.mem_cons_self, rfl⟩
      | _ => cases table
    · obtain ⟨callee, listed, named⟩ := ih later behind
      exact ⟨callee, List.mem_append_right _ listed, named⟩

theorem ordered_functionsBelow {entries : List (DecisionNode × Nat)}
    (each : ∀ entry ∈ entries, isTable entry.1 = true ∧ Ordered family pairs entry.1)
    (leaves : ∀ entry ∈ entries, ∀ index ∈ entry.1.leaves, index < family.types.length)
    (used : Nat)
    (among : (entries.flatMap fun entry => entry.1.tables).zip
      ((functionsBelow family used entries).1.map Source.Function.ofDispatchFunction) ⊆ pairs) :
    List.Forall₂ (Source.Renders family pairs) (entries.flatMap fun entry => entry.1.tables)
      ((functionsBelow family used entries).1.map .ofDispatchFunction) := by
  induction entries generalizing used with
  | nil => exact .nil
  | cons entry entries ih =>
    obtain ⟨⟨table, head⟩, later⟩ := List.forall_mem_cons.mp each
    obtain ⟨inside, more⟩ := List.forall_mem_cons.mp leaves
    obtain ⟨size, -⟩ := counted_of_isTable family entry.1 table (tableName entry.2) false used
    rw [functionsBelow, List.flatMap_cons, List.map_append,
      List.zip_append (by rw [List.length_map, size])] at among
    obtain ⟨first, others⟩ := List.append_subset.mp among
    rw [functionsBelow, List.flatMap_cons, List.map_append]
    exact List.rel_append (head inside _ _ _ first) (ih later more _ others)

theorem ordered_of_isTable (family : Family) (pairs : List (DecisionNode × Source.Function))
    (node : DecisionNode) (inner : isTable node = true) : Ordered family pairs node := by
  induction node, inner using isTable_induction with
  | table mask slots ih =>
    intro leaves name isPublic number among
    rw [tableFunctions_table, tables_table number] at among ⊢
    obtain ⟨-, below⟩ := List.cons_subset.mp among
    refine .cons (.table (forall₂_armFor ?_ ?_ ?_)) (ordered_functionsBelow ?_ ?_ _ below)
    · rintro ⟨child, slot⟩ member
      exact (mem_occupied.mp member).2
    · rintro ⟨child, slot⟩ member index leaf
      exact leaves index (DecisionNode.mem_leaves_table
        (Array.mem_of_getElem? (mem_occupied.mp member).1) leaf)
    · -- the number of a nested table is the one its own function is listed under
      rw [← nested_eq]
      intro entry member
      obtain ⟨callee, listed, named⟩ := exists_callee
        (fun entry member => (mem_nested_iff member).1) member
      exact ⟨callee, below listed, named⟩
    · intro entry member
      exact ⟨(mem_nested_iff member).1, ih number entry member⟩
    · intro entry member index leaf
      exact leaves index (DecisionNode.mem_leaves_table (mem_of_mem_nested member) leaf)

end Order

namespace Blueprint

variable {doc : Document} {blueprint : Blueprint}

/-- Every leaf of the tree is the place of a main type. -/
theorem lt_of_mem_leaves (planned : ofDocument doc = .ok blueprint) :
    ∀ index ∈ blueprint.tree.root.leaves, index < blueprint.main.types.length := by
  obtain ⟨tree, -, follows, -⟩ := ofDocument_eq_ok planned
  intro index leaf
  rw [tree] at leaf
  have placed := (DecisionNode.perm_leaves_ambiguities (BitVec.allOnes 16)
    (Candidate.ofInstructions doc.instructions)).mem_iff.mp (List.mem_append_left _ leaf)
  rw [Candidate.map_index_ofInstructions] at placed
  obtain ⟨type, found, -⟩ := follows.each index _
    (List.getElem?_eq_getElem (List.mem_range.mp placed))
  exact (List.getElem?_eq_some_iff.mp found).1

/-- What the dispatch functions owe to the tree. There is one for each table, and one if there is
none. They are the entry function and the nested functions, each number once; each nested function
is called once. The functions come as the tables do, and each renders its own: a slot with a nested
table calls the function of that table. -/
structure Dispatched (blueprint : Blueprint) (functions : List Source.Function) : Prop where
  length : functions.length = max 1 blueprint.tree.tableCount
  counted : functions.length = blueprint.functionCount
  first : (functions.map (·.name)).head? = some "decode_instruction"
  names : (functions.map (·.name)).Perm
    ("decode_instruction" :: nestedNames blueprint.tree.tableCount)
  calls : (functions.flatMap Source.Function.calls).Perm (nestedNames blueprint.tree.tableCount)
  renders : isTable blueprint.tree.root = true →
    List.Forall₂ (Source.Renders blueprint.main (blueprint.tree.root.tables.zip functions))
      blueprint.tree.root.tables functions

theorem dispatched (planned : ofDocument doc = .ok blueprint) :
    blueprint.Dispatched
      ((treeFunctions blueprint.main blueprint.tree.root).map .ofDispatchFunction) := by
  have names := Source.Function.map_name_ofDispatchFunction
    (treeFunctions blueprint.main blueprint.tree.root)
  have size := length_treeFunctions blueprint.main blueprint.tree.root
  have perm := perm_names blueprint.main blueprint.tree.root
  rw [← names] at perm
  refine ⟨?_, ?_, ?_, perm, perm_calls _ _, fun table => ?_⟩
  · rw [List.length_map, size, DecisionTree.tableCount]
  · rw [List.length_map, size, functionCount, DecisionTree.tableCount]
  · rw [names]
    cases blueprint.tree.root with
    | table mask slots =>
      rw [treeFunctions, tableFunctions_table]
      rfl
    | _ => rfl
  · have leaves := lt_of_mem_leaves planned
    cases root : blueprint.tree.root with
    | table mask slots =>
      rw [root] at leaves
      exact ordered_of_isTable blueprint.main _ _ rfl leaves rootName true 0 (List.Subset.refl _)
    | _ =>
      rw [root] at table
      cases table

end Blueprint

end Generated

end DspIsa
