import DspIsa.Proofs.Disks
import DspIsa.Proofs.EmittedTables

/-! Generating a decoder file is all or nothing. On a disk whose files are replaced as a whole, a
run that fails leaves the disk as it was, and one that succeeds changes the output file alone. -/
namespace DspIsa

namespace DecisionNode

/-- The nodes of a tree, each before those below it. -/
def nodes : DecisionNode → List DecisionNode
  | .table mask slots => .table mask slots :: (slots.map nodes).toList.flatten
  | node => [node]

/-- The node stands for instructions that cannot be told apart. -/
def isAmbiguous : DecisionNode → Bool
  | .ambiguous _ => true
  | _ => false

/-- There is one group for each node whose instructions cannot be told apart. -/
theorem countP_nodes (node : DecisionNode) :
    node.nodes.countP isAmbiguous = node.ambiguities.length := by
  induction node using DecisionNode.table_induction with
  | end_ node last =>
    cases node with
    | table mask slots => cases last
    | ambiguous indices => simp [nodes, isAmbiguous]
    | _ => simp [nodes, isAmbiguous]
  | table mask slots ih =>
    have same : slots.toList.map (fun child => child.nodes.countP isAmbiguous) =
        slots.toList.map fun child => child.ambiguities.length :=
      List.map_congr_left fun child member => ih child (Array.mem_def.mpr member)
    rw [nodes, ambiguities, List.countP_cons_of_neg (by simp [isAmbiguous]), Array.toList_map,
      Array.toList_map, ← List.flatMap_def, ← List.flatMap_def, List.countP_flatMap,
      List.length_flatMap]
    exact congrArg List.sum same

end DecisionNode

open Generated.Source (Unbroken heads strayHeads) in
/-- What a summary says of a document and of the text emitted for it. It counts the dispatch
functions of the text without those that the label and the digest open, so it counts all of them
exactly if these open none, as entries of one line do. -/
structure Summary.Describes (summary : Summary) (doc : Document) (options : Generated.Options)
    (text : String) : Prop where
  instructions : summary.instructions = doc.instructions.length
  extensions : summary.extensions = doc.extensions.length
  tables : (strayHeads options.sourceLabel ++
    strayHeads (options.sourceDigest.getD doc.digest)).length + summary.tables = (heads text).length
  tables_iff : summary.tables = (heads text).length ↔
    strayHeads options.sourceLabel ++ strayHeads (options.sourceDigest.getD doc.digest) = []
  tablesOfText : Unbroken options.sourceLabel →
    Unbroken (options.sourceDigest.getD doc.digest) → summary.tables = (heads text).length
  extensionConflicts :
    summary.extensionConflicts = (ExtensionTable.build doc.extensions).conflicts.length
  ambiguousNodes : summary.ambiguousNodes =
    (DecisionTree.build doc.instructions).root.nodes.countP DecisionNode.isAmbiguous
  bytesWritten : summary.bytesWritten = text.toUTF8.size

section Planned

variable {doc : Document} {blueprint : Generated.Blueprint}

open Generated.Source (heads strayHeads) in
theorem Summary.describes_ofBlueprint (planned : Generated.Blueprint.ofDocument doc = .ok blueprint)
    (options : Generated.Options) :
    (Summary.ofBlueprint blueprint (blueprint.program options).text).Describes doc options
      (blueprint.program options).text := by
  have document := Generated.Blueprint.document_of_planned planned
  obtain ⟨tree, table, -, -⟩ := Generated.Blueprint.ofDocument_eq_ok planned
  have count : (strayHeads options.sourceLabel ++
      strayHeads (options.sourceDigest.getD doc.digest)).length +
        (ofBlueprint blueprint (blueprint.program options).text).tables =
          (heads (blueprint.program options).text).length := by
    have opened := congrArg List.length (Generated.Blueprint.heads_program planned options)
    rw [List.length_append, List.length_map, Generated.length_treeFunctions] at opened
    exact opened.symm
  have exact_iff : (ofBlueprint blueprint (blueprint.program options).text).tables =
      (heads (blueprint.program options).text).length ↔ strayHeads options.sourceLabel ++
        strayHeads (options.sourceDigest.getD doc.digest) = [] := by
    rw [← count, Nat.right_eq_add, List.length_eq_zero_iff]
  have bytes (text : String) : (ofBlueprint blueprint text).bytesWritten = text.toUTF8.size := rfl
  constructor
  · exact congrArg (·.instructions.length) document
  · exact congrArg (·.extensions.length) document
  · exact count
  · exact exact_iff
  · intro label digest
    exact exact_iff.mpr (Generated.Source.strayHeads_append_of_unbroken label digest)
  · exact congrArg (·.conflicts.length) table
  · rw [Summary.ofBlueprint, DecisionTree.diagnostics, List.length_map, tree,
      DecisionNode.countP_nodes]
  · exact bytes _

theorem Generated.Blueprint.exists_of_emit {options : Generated.Options} {text : String}
    (emitted : (doc.emit options).value = .ok text) :
    ∃ blueprint, ofDocument doc = .ok blueprint ∧ (blueprint.program options).text = text := by
  cases planned : ofDocument doc with
  | error operand =>
    rw [Document.emit, Document.blueprint, planned] at emitted
    cases emitted
  | ok blueprint =>
    rw [emit_of_planned planned] at emitted
    exact ⟨blueprint, rfl, Except.ok.inj emitted⟩

end Planned

variable {State : Type} [MonadFiles (StateM State)]

/-- How a run of the generator ends on a disk that reading does not change: at a spec that cannot be
read, is refused or has a straddling operand, at an output that cannot be written, or with the
output written. -/
inductive Ends (before : State) (spec output : String) (options : Generated.Options) :
    Except SpecError Summary → State → Prop where
  | unreadable {fault : FileFault} (read : (runOn before (readText spec)).1 = .error fault) :
      Ends before spec output options (.error (.file fault)) before
  | refused {source : String} {error : SpecError}
      (read : (runOn before (readText spec)).1 = .ok source)
      (loaded : (Loader.new.loadText spec source).value.1 = .error error) :
      Ends before spec output options (.error error) before
  | straddling {source : String} {doc : Document} {operand : StraddlingOperand}
      (read : (runOn before (readText spec)).1 = .ok source)
      (loaded : (Loader.new.loadText spec source).value.1 = .ok doc)
      (planned : Generated.Blueprint.ofDocument doc = .error operand) :
      Ends before spec output options (.error (.straddling operand)) before
  | unwritable {source : String} {doc : Document} {blueprint : Generated.Blueprint}
      {fault : FileFault} (read : (runOn before (readText spec)).1 = .ok source)
      (loaded : (Loader.new.loadText spec source).value.1 = .ok doc)
      (planned : Generated.Blueprint.ofDocument doc = .ok blueprint)
      (write : (runOn before
        (writeFile output (blueprint.program options).text.toUTF8)).1 = .error fault) :
      Ends before spec output options (.error (.file fault))
        (runOn before (writeFile output (blueprint.program options).text.toUTF8)).2
  | written {source : String} {doc : Document} {blueprint : Generated.Blueprint}
      (read : (runOn before (readText spec)).1 = .ok source)
      (loaded : (Loader.new.loadText spec source).value.1 = .ok doc)
      (planned : Generated.Blueprint.ofDocument doc = .ok blueprint)
      (write : (runOn before
        (writeFile output (blueprint.program options).text.toUTF8)).1 = .ok ()) :
      Ends before spec output options
        (.ok (.ofBlueprint blueprint (blueprint.program options).text))
        (runOn before (writeFile output (blueprint.program options).text.toUTF8)).2

namespace Ends

variable {before after : State} {spec output : String} {options : Generated.Options}
  {result : Except SpecError Summary}

theorem after_of_error (ends : Ends before spec output options result after)
    (disk : Disk State) {error : SpecError} (failed : result = .error error) :
    after = before := by
  cases ends with
  | unwritable read loaded planned write => exact disk.keeps_of_refused write
  | written read loaded planned write => cases failed
  | _ => rfl

/-- A run that succeeds has gone all the way. -/
theorem exists_of_ok (ends : Ends before spec output options result after) {summary : Summary}
    (succeeded : result = .ok summary) :
    ∃ source doc text,
      (runOn before (readText spec)).1 = .ok source ∧
      (Loader.new.loadText spec source).value.1 = .ok doc ∧
      (doc.emit options).value = .ok text ∧
      (runOn before (writeFile output text.toUTF8)).1 = .ok () ∧
      after = (runOn before (writeFile output text.toUTF8)).2 ∧
      summary.Describes doc options text := by
  cases ends with
  | written read loaded planned write =>
    cases succeeded
    exact ⟨_, _, _, read, loaded, Generated.Blueprint.emit_of_planned planned options, write, rfl,
      Summary.describes_ofBlueprint planned options⟩
  | _ => cases succeeded

/-- A run that can go all the way succeeds. -/
theorem exists_ok (ends : Ends before spec output options result after) {source text : String}
    {doc : Document} (read : (runOn before (readText spec)).1 = .ok source)
    (loaded : (Loader.new.loadText spec source).value.1 = .ok doc)
    (emitted : (doc.emit options).value = .ok text)
    (write : (runOn before (writeFile output text.toUTF8)).1 = .ok ()) :
    ∃ summary, result = .ok summary := by
  obtain ⟨blueprint, planned, rfl⟩ := Generated.Blueprint.exists_of_emit emitted
  cases ends with
  | unreadable other =>
    rw [read] at other
    cases other
  | refused found other =>
    cases read.symm.trans found
    cases loaded.symm.trans other
  | straddling found accepted other =>
    cases read.symm.trans found
    cases loaded.symm.trans accepted
    cases planned.symm.trans other
  | unwritable found accepted other refused =>
    cases read.symm.trans found
    cases loaded.symm.trans accepted
    cases planned.symm.trans other
    cases write.symm.trans refused
  | written => exact ⟨_, rfl⟩

end Ends

theorem runOn_loadSpec (before : State) (spec : String) :
    runOn before (loadSpec spec) =
      (match (runOn before (readText spec)).1 with
        | .error fault => ⟨.error (.file fault), []⟩
        | .ok source => ⟨(Loader.new.loadText spec source).value.1,
          (Loader.new.loadText spec source).records⟩,
        (runOn before (readText spec)).2) := by
  unfold loadSpec Loader.load
  rw [runOn_bind, runOn_bind]
  cases (runOn before (readText spec)).1 with
  | error fault => rfl
  | ok source => rfl

namespace Disk

variable (disk : Disk State)

include disk in
theorem ends_generate (before : State) (spec output : String) (options : Generated.Options) :
    Ends before spec output options (runOn before (generate spec output options)).1.value
      (runOn before (generate spec output options)).2 := by
  unfold generate
  rw [runOn_bind, runOn_loadSpec]
  dsimp only
  rw [disk.keeps_of_readText]
  cases read : (runOn before (readText spec)).1 with
  | error fault => exact .unreadable read
  | ok source =>
    dsimp only
    cases loaded : (Loader.new.loadText spec source).value.1 with
    | error error => exact .refused read loaded
    | ok doc =>
      dsimp only
      cases planned : Generated.Blueprint.ofDocument doc with
      | error operand =>
        have value : doc.blueprint.value = .error (.straddling operand) := by
          rw [Document.blueprint, planned]
          rfl
        rw [value]
        exact .straddling read loaded planned
      | ok blueprint =>
        have value : doc.blueprint.value = .ok blueprint := by
          rw [Document.blueprint, planned]
        rw [value]
        dsimp only
        rw [runOn_bind]
        cases write : (runOn before
            (writeFile output (blueprint.program options).text.toUTF8)).1 with
        | error fault => exact .unwritable read loaded planned write
        | ok done => exact .written read loaded planned write

/-- Whatever stands on the disk and whichever files are named, the run fails and leaves the disk as
it was, or it succeeds, and the output is the one place that has changed: it holds the text emitted
for the document in the spec as it was before, which the summary describes. It succeeds exactly if
the spec is text that is accepted, a text is emitted for it and the output can be written. -/
theorem generate_whole_or_nothing (before : State) (spec output : String)
    (options : Generated.Options) :
    let result := (runOn before (generate spec output options)).1.value
    let after := (runOn before (generate spec output options)).2
    (∀ error, result = .error error → after = before) ∧
    (∀ summary, result = .ok summary → ∃ source doc text place,
      disk.text? before spec = some source ∧
      (Loader.new.loadText spec source).value.1 = .ok doc ∧
      (doc.emit options).value = .ok text ∧
      disk.place? before output = some place ∧
      disk.content? after place = some (.file text.toUTF8) ∧
      (∀ other, other ≠ place → disk.content? after other = disk.content? before other) ∧
      summary.Describes doc options text) ∧
    ((∃ summary, result = .ok summary) ↔ ∃ source doc text,
      (runOn before (readText spec)).1 = .ok source ∧
      (Loader.new.loadText spec source).value.1 = .ok doc ∧
      (doc.emit options).value = .ok text ∧
      (runOn before (writeFile output text.toUTF8)).1 = .ok ()) := by
  intro result after
  have ends : Ends before spec output options result after :=
    disk.ends_generate before spec output options
  refine ⟨fun error failed => ends.after_of_error disk failed, fun summary succeeded => ?_,
    ?_, ?_⟩
  · obtain ⟨source, doc, text, read, loaded, emitted, write, left, describes⟩ :=
      ends.exists_of_ok succeeded
    obtain ⟨place, leads, holds, others⟩ := disk.replaces_of_done write
    rw [← left] at holds others
    exact ⟨source, doc, text, place, disk.text?_of_readText read, loaded, emitted, leads, holds,
      others, describes⟩
  · rintro ⟨summary, succeeded⟩
    obtain ⟨source, doc, text, read, loaded, emitted, write, -⟩ := ends.exists_of_ok succeeded
    exact ⟨source, doc, text, read, loaded, emitted, write⟩
  · rintro ⟨source, doc, text, read, loaded, emitted, write⟩
    exact ends.exists_ok read loaded emitted write

end Disk

theorem fromUTF8?_toUTF8 (text : String) : String.fromUTF8? text.toUTF8 = some text :=
  dif_pos text.isValidUTF8

/-- A store with one file, a spec. -/
def FileStore.mixed : FileStore := ⟨[(["mixed"], .file Decoder.mixedWidths.toUTF8)]⟩

namespace FileStore

theorem names_mixed : names "mixed" = .ok ["mixed"] := by
  have split : "mixed".splitOn "/" = ["mixed"] := by
    rw [String.splitOn, if_neg (by decide)]
    iterate 6 rw [String.splitOnAux]
    decide +kernel
  rw [names, if_neg (by simp), if_neg (by decide), if_neg (by decide +kernel), split]

theorem names_dot : names "." = .ok ["."] := by
  have split : ".".splitOn "/" = ["."] := by
    rw [String.splitOn, if_neg (by decide)]
    iterate 2 rw [String.splitOnAux]
    decide +kernel
  rw [names, if_neg (by simp), if_neg (by decide), if_neg (by decide +kernel), split]

theorem origin_mixed : origin "mixed" = [] := by decide +kernel

theorem origin_dot : origin "." = [] := by decide +kernel

theorem resolve_mixed : mixed.resolve "mixed" = .ok ["mixed"] := by
  rw [resolve, names_mixed, origin_mixed]
  rfl

theorem readText_mixed : (runOn mixed (readText "mixed")).1 = .ok Decoder.mixedWidths := by
  have found : mixed.read "mixed" = .ok Decoder.mixedWidths.toUTF8 := by
    rw [FileStore.read, resolve_mixed]
    rfl
  exact readText_eq_ok found (fromUTF8?_toUTF8 _)

theorem write_mixed (bytes : ByteArray) :
    (runOn mixed (writeFile "mixed" bytes)).1 = .ok () := by
  have written : mixed.write "mixed" bytes = .ok ⟨[(["mixed"], .file bytes)]⟩ := by
    rw [FileStore.write, target, names_mixed, origin_mixed]
    rfl
  rw [runOn_writeFile, written]

theorem write_mixed_directory (bytes : ByteArray) :
    (runOn mixed (writeFile "." bytes)).1 = .error .isDirectory := by
  have refused : mixed.write "." bytes = .error .isDirectory := by
    rw [FileStore.write, target, names_dot, origin_dot]
    rfl
  rw [runOn_writeFile, refused]

end FileStore

/-- The decoder takes the place of its own spec. Where the output is a directory, nothing
changes. -/
theorem generate_whole_or_nothing_mixedWidths :
    ∃ doc text summary,
      (Loader.new.loadText "mixed" Decoder.mixedWidths).value.1 = .ok doc ∧
      (doc.emit .standard).value = .ok text ∧
      (runOn FileStore.mixed (generate "mixed" "mixed" .standard)).1.value = .ok summary ∧
      FileStore.entry? (runOn FileStore.mixed (generate "mixed" "mixed" .standard)).2 ["mixed"] =
        some (.file text.toUTF8) ∧
      summary.instructions = 2 ∧ summary.extensions = 0 ∧
      summary.tables = (Generated.Source.heads text).length ∧
      summary.bytesWritten = text.toUTF8.size ∧
      (∃ error, (runOn FileStore.mixed (generate "mixed" "." .standard)).1.value =
        .error error) ∧
      (runOn FileStore.mixed (generate "mixed" "." .standard)).2 =
        FileStore.mixed := by
  obtain ⟨doc, loaded, instructions, extensions⟩ := Decoder.exists_loadText_mixedWidths
  obtain ⟨blueprint, planned, -⟩ :=
    Generated.Blueprint.exists_ofDocument (Decoder.whole_of_loadText loaded)
  obtain ⟨text, emitted⟩ : ∃ text, (doc.emit .standard).value = .ok text :=
    ⟨_, Generated.Blueprint.emit_of_planned planned .standard⟩
  obtain ⟨-, delivers, succeeds⟩ :=
    FileStore.disk.generate_whole_or_nothing FileStore.mixed "mixed" "mixed" .standard
  obtain ⟨keeps, -, reaches⟩ :=
    FileStore.disk.generate_whole_or_nothing FileStore.mixed "mixed" "." .standard
  obtain ⟨summary, result⟩ := succeeds.mpr
    ⟨_, doc, text, FileStore.readText_mixed, loaded, emitted, FileStore.write_mixed _⟩
  obtain ⟨source, other, made, place, found, accepted, given, leads, holds, -, describes⟩ :=
    delivers summary result
  have same : FileStore.disk.place? FileStore.mixed "mixed" = some ["mixed"] :=
    congrArg Except.toOption FileStore.resolve_mixed
  have content := FileStore.disk.text?_of_readText FileStore.readText_mixed
  obtain rfl : Decoder.mixedWidths = source := Option.some.inj (content.symm.trans found)
  obtain rfl : doc = other := Except.ok.inj (loaded.symm.trans accepted)
  obtain rfl : text = made := Except.ok.inj (emitted.symm.trans given)
  obtain rfl : ["mixed"] = place := Option.some.inj (same.symm.trans leads)
  have failed : ∃ error,
      (runOn FileStore.mixed (generate "mixed" "." .standard)).1.value = .error error := by
    cases outcome : (runOn FileStore.mixed (generate "mixed" "." .standard)).1.value with
    | error error => exact ⟨error, rfl⟩
    | ok summary =>
      obtain ⟨_, _, _, -, -, -, written⟩ := reaches.mp ⟨summary, outcome⟩
      rw [FileStore.write_mixed_directory] at written
      cases written
  obtain ⟨error, failed⟩ := failed
  refine ⟨doc, text, summary, loaded, emitted, result, holds, ?_, ?_,
    describes.tables_iff.mpr ?_, describes.bytesWritten, ⟨error, failed⟩, keeps error failed⟩
  · rw [describes.instructions, instructions]
    rfl
  · rw [describes.extensions, extensions]
    rfl
  · have digest := Generated.Blueprint.unbroken_digest_of_parse (Loader.loadText_eq_ok loaded).1
    exact Generated.Source.strayHeads_append_of_unbroken (by decide) digest

open Generated.Blueprint (functionLabel) in
/-- The label defines a function that the summary does not count. -/
theorem tables_lt_length_heads_functionLabel :
    ∃ doc text summary,
      (Loader.new.loadText "mixed" Decoder.mixedWidths).value.1 = .ok doc ∧
      (doc.emit functionLabel).value = .ok text ∧
      (runOn FileStore.mixed (generate "mixed" "mixed" functionLabel)).1.value = .ok summary ∧
      "generated_table_9" ∈ Generated.Source.heads text ∧
      summary.tables < (Generated.Source.heads text).length := by
  obtain ⟨doc, loaded, -⟩ := Decoder.exists_loadText_mixedWidths
  obtain ⟨blueprint, planned, -⟩ :=
    Generated.Blueprint.exists_ofDocument (Decoder.whole_of_loadText loaded)
  have emitted := Generated.Blueprint.emit_of_planned planned functionLabel
  have ends := FileStore.disk.ends_generate FileStore.mixed "mixed" "mixed" functionLabel
  obtain ⟨summary, result⟩ :=
    ends.exists_ok FileStore.readText_mixed loaded emitted (FileStore.write_mixed _)
  obtain ⟨source, other, text, read, accepted, given, -, -, describes⟩ := ends.exists_of_ok result
  obtain rfl : Decoder.mixedWidths = source :=
    Except.ok.inj (FileStore.readText_mixed.symm.trans read)
  obtain rfl : doc = other := Except.ok.inj (loaded.symm.trans accepted)
  obtain rfl := Except.ok.inj (emitted.symm.trans given)
  have count := describes.tables
  rw [Generated.Blueprint.strayHeads_functionLabel] at count
  refine ⟨doc, _, summary, loaded, emitted, result, ?_, ?_⟩
  · rw [Generated.Blueprint.heads_program planned,
      Generated.Blueprint.strayHeads_functionLabel]
    exact List.mem_cons_self
  · rw [← count]
    simp

end DspIsa
