import DspIsa.Proofs.DispatchFunctions
import DspIsa.Proofs.DispatchMeaning
import DspIsa.Proofs.RoundTrip

/-! The generated decoder of an accepted spec. Its dispatch functions walk the decision tree, and
what they build holds the fields of the reference decoder. -/
namespace DspIsa.Generated

namespace Source

section Walk

variable {family : Family} {scope : Scope} {first second : Word} {value : Value}

/-- The index of a dispatch function picks the arm of the slot that the word names. -/
theorem outcome?_dispatch (first mask : Word) (arms : List Arm) (nop : OpcodeType) :
    (Body.ofFunctionBody (.dispatch (indexBits mask) arms nop)).outcome? first =
      some ((((arms.find? (·.index == Bits.gather first mask)).map (·.body)).map
        Outcome.ofArmBody).getD (.default nop.ident)) := by
  obtain ⟨index, computed, slot⟩ :=
    Option.map_eq_some_iff.mp (toNat_index?_indexBits first mask)
  rw [Body.ofFunctionBody, Body.outcome?, computed, Option.map_some, slot, List.find?_map,
    Option.map_map, Option.map_map]
  rfl

/-- The scope has these functions under their names. -/
def Scope.Holds (scope : Scope) (contents : List DispatchFunction) : Prop :=
  ∀ content ∈ contents, scope.function? content.name = some (.ofDispatchFunction content)

/-- The functions of a table listed with its number are among those of the list. -/
theorem exists_functionsBelow (family : Family) (used : Nat)
    {entries : List (DecisionNode × Nat)} {entry : DecisionNode × Nat}
    (member : entry ∈ entries) :
    ∃ number, ∀ content ∈ (tableFunctions family (tableName entry.2) false number entry.1).1,
      content ∈ (functionsBelow family used entries).1 := by
  induction entries generalizing used with
  | nil => cases member
  | cons head rest ih =>
    rw [functionsBelow]
    rcases List.mem_cons.mp member with rfl | later
    · exact ⟨used, fun content listed => List.mem_append_left _ listed⟩
    · obtain ⟨number, among⟩ := ih _ later
      exact ⟨number, fun content listed => List.mem_append_right _ (among content listed)⟩

/-- The function of a table yields what the tree below it leads to. -/
theorem yields_table (node : DecisionNode) (table : isTable node = true) {name : String}
    {isPublic : Bool} {number : Nat}
    (held : scope.Holds (tableFunctions family name isPublic number node).1)
    (yields : Yields scope first second (.ofLookup family (node.lookup first)) value) :
    Yields scope first second (.call name) value := by
  induction node, table using isTable_induction generalizing name isPublic number with
  | table mask slots ih =>
    rw [tableFunctions_table] at held
    obtain ⟨own, below⟩ := List.forall_mem_cons.mp held
    refine .call own (outcome?_dispatch ..) ?_
    rw [DecisionNode.lookup_table] at yields
    have answers := answers_arms family number (DecisionNode.occupied slots)
      (Bits.gather first mask)
    rw [← nested_eq] at answers
    generalize ((arms family number (DecisionNode.occupied slots)).find?
      (·.index == Bits.gather first mask)).map (·.body) = answer at answers ⊢
    cases answers with
    | leaf listed =>
      rw [(mem_occupied.mp listed).1, Option.bind_some, DecisionNode.lookup_leaf] at yields
      exact yields
    | table listed numbered =>
      rw [(mem_occupied.mp listed).1, Option.bind_some] at yields
      obtain ⟨start, among⟩ := exists_functionsBelow family
        (number + (nested number slots).length) numbered
      exact ih number _ numbered (fun content listed => below content (among content listed)) yields
    | missing free =>
      have nothing :
          (slots[Bits.gather first mask]?.bind fun node => node.lookup first) = none := by
        cases inside : slots[Bits.gather first mask]? with
        | none => rfl
        | some node =>
          cases node with
          | empty => exact DecisionNode.lookup_empty first
          | ambiguous indices => exact DecisionNode.lookup_ambiguous first indices
          | leaf index =>
            cases free _ (mem_occupied.mpr ⟨inside, rfl⟩)
          | table other below =>
            cases free _ (mem_occupied.mpr ⟨inside, rfl⟩)
      rw [nothing] at yields
      exact yields

/-- The entry function of a tree yields what the tree leads to. -/
theorem yields_tree (node : DecisionNode) (held : scope.Holds (treeFunctions family node))
    (yields : Yields scope first second (.ofLookup family (node.lookup first)) value) :
    Yields scope first second (.call rootName) value := by
  cases node with
  | table mask slots => exact yields_table (.table mask slots) rfl held yields
  | leaf index =>
    rw [DecisionNode.lookup_leaf] at yields
    exact .call (held _ (List.mem_singleton.mpr rfl)) rfl yields
  | empty =>
    rw [DecisionNode.lookup_empty] at yields
    exact .call (held _ (List.mem_singleton.mpr rfl)) rfl yields
  | ambiguous indices =>
    rw [DecisionNode.lookup_ambiguous] at yields
    exact .call (held _ (List.mem_singleton.mpr rfl)) rfl yields

end Walk

/-- No two functions of a tree have one name in the text. -/
theorem nodup_ofTreeFunctions (family : Family) (node : DecisionNode) :
    (((treeFunctions family node).map Function.ofDispatchFunction).map (·.name)).Nodup := by
  rw [Function.map_name_ofDispatchFunction]
  exact nodup_treeFunctions family node

/-- The dispatch functions of a tree find each other by their names. -/
theorem holds_treeFunctions (family : Family) (node : DecisionNode) :
    Scope.Holds ⟨family.types, (treeFunctions family node).map .ofDispatchFunction⟩
      (treeFunctions family node) := fun _ member =>
  find?_of_nodup_map (nodup_ofTreeFunctions family node) (List.mem_map_of_mem member)

end Source

namespace Blueprint

/-- What a value built from two words owes to the reference decoder, whose tree is the same. -/
def Agrees (blueprint : Blueprint) (decoder : Decoder) (first second : Word)
    (value : Source.Value) : Prop :=
  blueprint.main.Agrees (blueprint.tree.lookup first) (decoder.decodeMain first second) value

variable {doc : Document} {blueprint : Blueprint} {decoder : Decoder}

theorem Follows.legible (follows : blueprint.Follows doc) : blueprint.main.Legible :=
  follows.main.legible

/-- What the tree leads to can be evaluated, to a value that agrees with the reference decoder. -/
theorem exists_agrees (formed : doc.WellFormed) (follows : blueprint.Follows doc)
    (made : Decoder.ofDocument doc = .ok decoder) (functions : List Source.Function)
    (first second : Word) :
    ∃ value, Source.Yields ⟨blueprint.main.types, functions⟩ first second
        (.ofLookup blueprint.main (blueprint.tree.lookup first)) value ∧
      blueprint.Agrees decoder first second value := by
  have decoded (index : Nat) (hit : blueprint.tree.lookup first = some index) :
      ∃ instr layout, doc.instructions[index]? = some instr ∧
        Layout.ofInstruction instr = .ok layout ∧
          decoder.decodeMain first second = layout.read first second := by
    rw [follows.tree] at hit
    exact Decoder.decodeMain_of_lookup made hit second
  exact ⟨_, follows.main.yields_value (fun instr member => (formed.main instr member).1) decoded
    functions, follows.main.agrees_value decoded⟩

/-- The entry function has exactly one value, and that value agrees with the reference decoder. -/
theorem exists_value (formed : doc.WellFormed) (follows : blueprint.Follows doc)
    (made : Decoder.ofDocument doc = .ok decoder) (first second : Word) :
    ∃ value, blueprint.Agrees decoder first second value ∧
      ∀ other, Source.Yields ⟨blueprint.main.types,
          (treeFunctions blueprint.main blueprint.tree.root).map .ofDispatchFunction⟩ first second
        (.call "decode_instruction") other ↔ other = value := by
  obtain ⟨value, yields, agrees⟩ := exists_agrees formed follows made
    ((treeFunctions blueprint.main blueprint.tree.root).map .ofDispatchFunction) first second
  have entry := Source.yields_tree blueprint.tree.root
    (Source.holds_treeFunctions blueprint.main blueprint.tree.root) yields
  refine ⟨value, agrees, fun other => ⟨fun again => again.unique entry, ?_⟩⟩
  rintro rfl
  exact entry

/-- For an accepted spec and any options, the bit helpers and the dispatch functions stand in the
emitted text, and they are functions with different names. Read as functions on two words, the entry
function has exactly one value for every two words, and that value agrees with the reference
decoder. -/
theorem yields_iff_of_loadText {loader : Loader} {path source : String}
    (accepted : (loader.loadText path source).value.1 = .ok doc) (options : Options) :
    ∃ blueprint decoder functions, ofDocument doc = .ok blueprint ∧ blueprint.Follows doc ∧
      Decoder.ofDocument doc = .ok decoder ∧
      Emits doc options [helperText, (blueprint.program options).functionText] ∧
      Source.functions? (blueprint.program options).dispatchText = some functions ∧
      (functions.map (·.name)).Nodup ∧
      ∀ first second, ∃ value, blueprint.Agrees decoder first second value ∧
        ∀ other, Source.Yields ⟨blueprint.main.types, functions⟩ first second
          (.call "decode_instruction") other ↔ other = value := by
  obtain ⟨blueprint, planned, follows⟩ := exists_ofDocument (Decoder.whole_of_loadText accepted)
  obtain ⟨decoder, made⟩ := Decoder.exists_of_loadText accepted
  have formed := Spec.wellFormed_of_parse (Loader.loadText_eq_ok accepted).1
  have read : Source.functions? (blueprint.program options).dispatchText =
      some ((treeFunctions blueprint.main blueprint.tree.root).map .ofDispatchFunction) :=
    Source.functions?_dispatchText (legible_treeFunctions follows.legible blueprint.tree.root)
  have emitted : Emits doc options [helperText, (blueprint.program options).functionText] :=
    emits planned (List.forall_mem_cons.mpr ⟨Program.helperText_isInfix _,
      List.forall_mem_singleton.mpr (Program.functionText_isInfix _)⟩)
  exact ⟨blueprint, decoder, _, planned, follows, made, emitted, read,
    Source.nodup_ofTreeFunctions blueprint.main blueprint.tree.root,
    exists_value formed follows made⟩

open Decoder in
/-- One word that leads to the two-word instruction, and one that leads nowhere. -/
theorem yields_iff_of_loadText_mixedWidths :
    ∃ doc blueprint functions, (Loader.new.loadText "mixed" mixedWidths).value.1 = .ok doc ∧
      ofDocument doc = .ok blueprint ∧
      Source.functions? (blueprint.program .standard).dispatchText = some functions ∧
      Source.Yields ⟨blueprint.main.types, functions⟩ 0x8000#16 0x2345#16
        (.call "decode_instruction") ⟨"NOP", [⟨"x", 0#16⟩]⟩ ∧
      ∃ value, Source.Yields ⟨blueprint.main.types, functions⟩ 0x6001#16 0x2345#16
          (.call "decode_instruction") value ∧
        value.type = "LRI_D_I" ∧ value.fields.map (·.name) = ["d_1", "x", "d", "i"] ∧
        ∀ field ∈ value.fields, field.name = "i" → field.value = 0x2345#16 := by
  obtain ⟨⟨path, digest, instructions, extensions⟩, accepted, main, bytes⟩ :=
    exists_loadText_mixedWidths
  cases main
  cases bytes
  obtain ⟨blueprint, decoder, functions, planned, -, made, -, read, -, yields⟩ :=
    yields_iff_of_loadText accepted .standard
  refine ⟨_, blueprint, functions, accepted, planned, read, ?_, ?_⟩
  · obtain ⟨value, agrees, unique⟩ := yields 0x8000#16 0x2345#16
    cases planned
    unfold Agrees Family.Agrees at agrees
    have missed : (DecisionTree.build [noOperation, loadImmediate]).lookup 0x8000#16 = none := by
      cbv
    simp only [missed] at agrees
    refine (unique _).mpr ?_
    cases value
    simp only at agrees
    rw [agrees.1, agrees.2]
    rfl
  · obtain ⟨value, agrees, unique⟩ := yields 0x6001#16 0x2345#16
    refine ⟨value, (unique value).mpr rfl, ?_⟩
    cases planned
    have hit : (DecisionTree.build [noOperation, loadImmediate]).lookup 0x6001#16 = some 1 := by
      cbv
    unfold Agrees Family.Agrees at agrees
    simp only [hit] at agrees
    obtain ⟨type, listed, ident, names, fields⟩ := agrees
    cases listed
    refine ⟨ident, names, fun field member same => ?_⟩
    have found := fields field member
    rw [same] at found
    obtain ⟨instr, layout, there, laidOut, decoded⟩ := decodeMain_of_lookup made hit 0x2345#16
    cases there
    cases laidOut
    rw [decoded] at found
    exact (Option.some.inj found).symm

end Blueprint

end DspIsa.Generated
