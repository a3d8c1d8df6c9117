import DspIsa.Proofs.RoundTrip
import DspIsa.Proofs.TextHeads

/-! The dispatch functions of an emitted text are those of the tables of the tree, in their order.
A label or digest of several lines can add to them. -/
namespace DspIsa.Generated

open Source (Unbroken heads strayHeads)

namespace Blueprint

variable {doc : Document} {blueprint : Blueprint}

/-- For every document with a blueprint and any options, the bit helpers and the dispatch functions
stand in the emitted text, and the functions are those that the tree asks for. The lines of the text
open them in this order, behind those that the label and the digest open. So the text has one
function for each table exactly if the label and the digest open none, and they open none if each is
one line. -/
theorem renders_tables (planned : ofDocument doc = .ok blueprint) (options : Options) :
    ∃ text functions, (doc.emit options).value = .ok text ∧
      helperText.toList <:+: text.toList ∧
      (blueprint.program options).functionText.toList <:+: text.toList ∧
      Source.functions? (blueprint.program options).dispatchText = some functions ∧
      blueprint.Dispatched functions ∧
      heads text = strayHeads options.sourceLabel ++
        strayHeads (options.sourceDigest.getD doc.digest) ++ functions.map (·.name) ∧
      ((heads text).length = max 1 blueprint.tree.tableCount ↔
        strayHeads options.sourceLabel ++
          strayHeads (options.sourceDigest.getD doc.digest) = []) ∧
      (Unbroken options.sourceLabel → Unbroken (options.sourceDigest.getD doc.digest) →
        heads text = functions.map (·.name)) := by
  obtain ⟨-, -, follows, -⟩ := ofDocument_eq_ok planned
  have functions : Source.functions? (blueprint.program options).dispatchText =
      some ((treeFunctions blueprint.main blueprint.tree.root).map .ofDispatchFunction) :=
    Source.functions?_dispatchText (legible_treeFunctions follows.legible blueprint.tree.root)
  have tables := dispatched planned
  have opened := heads_program planned options
  rw [← Source.Function.map_name_ofDispatchFunction] at opened
  refine ⟨_, _, emit_of_planned planned options, Program.helperText_isInfix _,
    Program.functionText_isInfix _, functions, tables, opened, ?_, fun label digest => ?_⟩
  · rw [opened, List.length_append, List.length_map, tables.length, Nat.add_eq_right,
      List.length_eq_zero_iff]
  · rw [opened, Source.strayHeads_append_of_unbroken label digest, List.nil_append]

/-- The digest of a spec opens no functions: it is one line. -/
theorem unbroken_digest_of_parse {path source : String} (read : Spec.parse path source = .ok doc) :
    Unbroken doc.digest := by
  rw [Spec.digest_of_parse read, Unbroken, Digest.sha256, Digest.Sha256.State.hex,
    String.toList_join, List.flatMap_map, List.mem_flatMap]
  rintro ⟨word, -, newline⟩
  exact Source.unbroken_hex 8 _ newline

/-- Two tables, the second below the first: the entry function and one that it calls. -/
theorem renders_tables_layered :
    ∃ blueprint text functions,
      ofDocument ⟨"layered", "", DecisionTree.layered, []⟩ = .ok blueprint ∧
      (Document.emit ⟨"layered", "", DecisionTree.layered, []⟩ .standard).value = .ok text ∧
      Source.functions? (blueprint.program .standard).dispatchText = some functions ∧
      heads text = ["decode_instruction", "generated_table_1"] ∧
      functions.flatMap Source.Function.calls = ["generated_table_1"] ∧
      isTable blueprint.tree.root = true ∧
      List.Forall₂ (Source.Renders blueprint.main (blueprint.tree.root.tables.zip functions))
        [.table 0xC000#16 #[.leaf 0, .table 0x2000#16 #[.leaf 1, .leaf 2], .empty, .empty],
          .table 0x2000#16 #[.leaf 1, .leaf 2]] functions := by
  have whole : ∀ instr ∈ DecisionTree.layered ++ [], instr.straddling = [] := by decide
  have made : ∃ blueprint, ofDocument ⟨"layered", "", DecisionTree.layered, []⟩ = .ok blueprint ∧
      blueprint.Follows _ := exists_ofDocument whole
  obtain ⟨blueprint, planned, follows⟩ := made
  have root : blueprint.tree.root = .table 0xC000#16
      #[.leaf 0, .table 0x2000#16 #[.leaf 1, .leaf 2], .empty, .empty] := by
    rw [follows.tree]
    cbv
  have tables : blueprint.tree.root.tables =
      [.table 0xC000#16 #[.leaf 0, .table 0x2000#16 #[.leaf 1, .leaf 2], .empty, .empty],
        .table 0x2000#16 #[.leaf 1, .leaf 2]] := by
    rw [root]
    simp [DecisionNode.tables]
  have table : isTable blueprint.tree.root = true := by
    rw [root]
    rfl
  obtain ⟨text, functions, emitted, -, -, read, dispatched, -, -, opened⟩ :=
    renders_tables planned .standard
  have count : nestedNames blueprint.tree.tableCount = ["generated_table_1"] := by
    rw [DecisionTree.tableCount, ← DecisionNode.length_tables, tables]
    rfl
  have calls := dispatched.calls
  have names := dispatched.names
  have each := dispatched.renders table
  rw [count] at names calls
  rw [tables] at each
  refine ⟨blueprint, text, functions, planned, emitted, read, ?_, List.perm_singleton.mp calls,
    table, ?_⟩
  · obtain ⟨others, same⟩ := List.head?_eq_some_iff.mp dispatched.first
    rw [opened (by decide) (by decide)]
    rw [same] at names ⊢
    rw [List.perm_singleton.mp names.cons_inv]
  · rw [tables]
    exact each

/-- Options whose label defines a function behind its first line. -/
def functionLabel : Options := { Options.standard with
  sourceLabel := "dsp\nfn generated_table_9(instruction: u16, next_instruction: u16) -> " ++
    "DspInstruction \x7b\n    decode_instruction(instruction, next_instruction)\n\x7d" }

theorem strayHeads_functionLabel :
    strayHeads functionLabel.sourceLabel = ["generated_table_9"] := by
  decide +kernel

/-- The tree has no table, and the text opens two functions. -/
theorem heads_functionLabel :
    ∃ blueprint text, ofDocument ⟨"none", "", [], []⟩ = .ok blueprint ∧
      (Document.emit ⟨"none", "", [], []⟩ functionLabel).value = .ok text ∧
      max 1 blueprint.tree.tableCount = 1 ∧
      heads text = ["generated_table_9", "decode_instruction"] := by
  obtain ⟨blueprint, planned, follows⟩ : ∃ blueprint,
    ofDocument ⟨"none", "", [], []⟩ = .ok blueprint ∧ blueprint.Follows _ := exists_ofDocument nofun
  have root : blueprint.tree.root = .empty := by
    rw [follows.tree]
    cbv
  have digest : strayHeads (functionLabel.sourceDigest.getD "") = [] := by decide
  refine ⟨blueprint, _, planned, emit_of_planned planned _, ?_, ?_⟩
  · rw [DecisionTree.tableCount, root, DecisionNode.tableCount_eq_zero rfl]
    rfl
  · rw [heads_program planned, strayHeads_functionLabel, digest, root]
    rfl

end Blueprint

end DspIsa.Generated
