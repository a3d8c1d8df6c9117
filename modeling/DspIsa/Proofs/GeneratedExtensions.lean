import DspIsa.Proofs.ByteRuns
import DspIsa.Proofs.ByteText
import DspIsa.Proofs.DispatchFunctions
import DspIsa.Proofs.DispatchMeaning
import DspIsa.Proofs.Reencoding

/-! The generated extension dispatcher. Its arms are the longest runs of bytes with one owner, and
what it builds for a word holds the fields of the reference decoder. -/
namespace DspIsa.Generated

namespace Source

namespace ByteFunction

/-- What is left to evaluate for a word: the first arm that takes its low byte, else the last. -/
def outcome? (function : ByteFunction) (word : Word) : Option Outcome :=
  let byte := (word &&& 0xFF#16).toNat
  ((function.cases.find? fun entry => entry.first ≤ byte && byte ≤ entry.last).map
    (·.outcome)).or function.otherwise

/-- The value for a word. There is no second parameter, so no second word has a part in it. -/
def Yields (types : List OpcodeType) (function : ByteFunction) (word : Word) (value : Value) :
    Prop :=
  ∃ outcome, function.outcome? word = some outcome ∧
    ∀ second, Source.Yields ⟨types, []⟩ word second outcome value

/-- What the arms owe to a byte table. They ascend, each builds the type of the extension that owns
all its bytes, no two for one owner touch, and together they take the bytes that have an owner;
there is one more arm exactly where that leaves some byte. -/
structure Splits (function : ByteFunction) (table : ExtensionTable) (family : Family) : Prop where
  filled : ∀ entry ∈ function.cases, entry.first ≤ entry.last
  ascending : function.cases.Pairwise fun entry later => entry.last < later.first
  apart : function.cases.Pairwise fun entry later =>
    table.owner? entry.last = table.owner? later.first → entry.last + 1 ≠ later.first
  owned : ∀ entry ∈ function.cases, ∃ index type, family.types[index]? = some type ∧
    entry.outcome = .construct type.ident type.fields ∧
    ∀ byte, entry.first ≤ byte → byte ≤ entry.last → table.owner? byte = some index
  covers : ∀ byte, (∃ entry ∈ function.cases, entry.first ≤ byte ∧ byte ≤ entry.last) ↔
    (table.owner? byte).isSome = true
  otherwise : function.otherwise.isSome = true ↔ ∃ byte < 256, table.owner? byte = none

variable {function : ByteFunction} {table : ExtensionTable} {family : Family}

/-- The arms pick the value of the extension that owns the low byte. -/
theorem Splits.outcome?_eq (splits : function.Splits table family)
    (last : ∀ outcome ∈ function.otherwise, outcome = .default family.nop.ident) (word : Word) :
    function.outcome? word =
      some (.ofLookup family (table.owner? (word &&& 0xFF#16).toNat)) := by
  unfold outcome?
  dsimp only
  have small : (word &&& 0xFF#16).toNat < 256 := by
    rw [BitVec.toNat_and]
    exact Nat.lt_of_le_of_lt Nat.and_le_right (by decide)
  generalize (word &&& 0xFF#16).toNat = byte at small ⊢
  cases hit : function.cases.find? fun entry => entry.first ≤ byte && byte ≤ entry.last with
  | some entry =>
    obtain ⟨above, below⟩ := by simpa using List.find?_some hit
    obtain ⟨index, type, listed, outcome, owned⟩ :=
      splits.owned entry (List.mem_of_find?_eq_some hit)
    rw [owned byte above below, Option.map_some, Option.some_or, outcome, Outcome.ofLookup, listed]
    rfl
  | none =>
    have free : table.owner? byte = none := by
      rw [← Option.not_isSome_iff_eq_none, ← splits.covers]
      rintro ⟨entry, member, above, below⟩
      have missed := List.find?_eq_none.mp hit entry member
      simp [above, below] at missed
    obtain ⟨outcome, given⟩ :=
      Option.isSome_iff_exists.mp (splits.otherwise.mpr ⟨byte, small, free⟩)
    rw [Option.map_none, Option.none_or, given, free, last outcome given]
    rfl

/-- The last arm builds the default value of the no-op. -/
theorem eq_default_of_mem_otherwise {dispatch : ByteDispatch} {nop : OpcodeType}
    {outcome : Outcome} (given : outcome ∈ (ofByteDispatch dispatch nop).otherwise) :
    outcome = .default nop.ident :=
  (Option.some.inj (Option.ite_none_right_eq_some.mp given).2).symm

variable {extensions : List Instruction}

/-- The dispatcher has a last arm exactly where some byte has no owner. -/
theorem isSome_otherwise_iff (extensions : List Instruction) (family : Family) :
    (ofByteDispatch (byteDispatch (.build extensions) family) family.nop).otherwise.isSome = true ↔
      ∃ byte < 256, (ExtensionTable.build extensions).owner? byte = none := by
  have text : (ofByteDispatch (byteDispatch (.build extensions) family) family.nop).otherwise =
      if (!(ExtensionTable.build extensions).isComplete) = true then
        some (.default family.nop.ident) else none := rfl
  have partly : (∃ byte < 256, (ExtensionTable.build extensions).owner? byte = none) ↔
      ¬ (ExtensionTable.build extensions).isComplete = true := by
    rw [ExtensionTable.isComplete_build]
    push Not
    simp only [ne_eq, Option.not_isSome_iff_eq_none]
  rw [text, partly]
  cases (ExtensionTable.build extensions).isComplete with
  | true => simp
  | false => simp

/-- The arms of the dispatcher are the runs of the table. -/
theorem splits_ofByteDispatch (follows : family.Follows extensions) :
    (ofByteDispatch (byteDispatch (.build extensions) family) family.nop).Splits
      (.build extensions) family := by
  have entries : (ofByteDispatch (byteDispatch (.build extensions) family) family.nop).cases =
      (ByteRun.ofCovered (ExtensionTable.build extensions).covered).map fun run =>
        .ofByteArm ⟨run.first, run.last, family.types[run.owner]?.getD family.nop⟩ :=
    List.map_map
  have groups := ByteRun.groups_ofCovered (ExtensionTable.build extensions).pairwise_covered
  generalize ByteRun.ofCovered (ExtensionTable.build extensions).covered = runs at entries groups
  have owner {run : ByteRun} (member : run ∈ runs) {byte : Nat} (above : run.first ≤ byte)
      (below : byte ≤ run.last) : (ExtensionTable.build extensions).owner? byte = some run.owner :=
    (ExtensionTable.mem_covered.mp
      ((groups.covers byte run.owner).mpr ⟨run, member, ⟨above, below⟩, rfl⟩)).2
  have first {run : ByteRun} (member : run ∈ runs) :=
    owner member (Nat.le_refl _) (groups.filled run member)
  have last {run : ByteRun} (member : run ∈ runs) :=
    owner member (groups.filled run member) (Nat.le_refl _)
  constructor
  case filled =>
    rw [entries, List.forall_mem_map]
    exact groups.filled
  case ascending =>
    rw [entries, List.pairwise_map]
    exact groups.ascending
  case apart =>
    rw [entries, List.pairwise_map]
    refine groups.apart.imp_of_mem fun {run later} member next apart same => apart ?_
    exact Option.some.inj ((last member).symm.trans (same.trans (first next)))
  case owned =>
    rw [entries, List.forall_mem_map]
    intro run member
    obtain ⟨-, extension, found, -⟩ := ExtensionTable.exists_of_owner? (first member)
    obtain ⟨type, listed, -⟩ := follows.each _ extension found
    refine ⟨run.owner, type, listed, ?_, fun byte above below => owner member above below⟩
    rw [listed]
    rfl
  case covers =>
    intro byte
    rw [entries]
    constructor
    · rintro ⟨entry, member, above, below⟩
      obtain ⟨run, listed, rfl⟩ := List.mem_map.mp member
      rw [owner listed above below]
      rfl
    · intro found
      obtain ⟨index, owned⟩ := Option.isSome_iff_exists.mp found
      have covered := ExtensionTable.mem_covered.mpr
        ⟨(ExtensionTable.exists_of_owner? owned).1, owned⟩
      obtain ⟨run, member, holds, -⟩ := (groups.covers byte index).mp covered
      exact ⟨_, List.mem_map_of_mem member, holds⟩
  case otherwise => exact isSome_otherwise_iff extensions family

end ByteFunction

/-- The arms of a dispatcher name bytes and legible types. -/
theorem legibleCase_of_mem_arms {table : ExtensionTable} {family : Family}
    (legible : family.Legible) : ∀ arm ∈ (byteDispatch table family).arms, LegibleCase arm := by
  have groups := ByteRun.groups_ofCovered table.pairwise_covered
  refine List.forall_mem_map.mpr fun run member => ⟨?_, ?_, legible.getD run.owner⟩
  · exact (ExtensionTable.mem_covered.mp (groups.mem_first member)).1
  · exact (ExtensionTable.mem_covered.mp (groups.mem_last member)).1

end Source

namespace Blueprint

variable {doc : Document} {blueprint : Blueprint}

/-- A document with a blueprint has a decoder. -/
theorem exists_decoder (planned : ofDocument doc = .ok blueprint) :
    ∃ decoder, Decoder.ofDocument doc = .ok decoder := by
  obtain ⟨-, -, main, extension⟩ := ofDocument_eq_ok planned
  refine Decoder.exists_of_resolveAll fun instr member => ?_
  rcases List.mem_append.mp member with listed | listed
  · exact main.exists_resolveAll listed
  · exact extension.exists_resolveAll listed

/-- For a document with a blueprint and any options, the bit helpers and the extension dispatcher
stand in the emitted text, and the dispatcher is a function whose arms split the bytes as the byte
table does. It has exactly one value for every word, and that value agrees with the reference
decoder. -/
theorem byteYields_iff_of_parse {path source : String} (read : Spec.parse path source = .ok doc)
    (planned : ofDocument doc = .ok blueprint) (options : Options) :
    ∃ decoder function, Decoder.ofDocument doc = .ok decoder ∧
      blueprint.table = .build doc.extensions ∧ blueprint.extension.Follows doc.extensions ∧
      Emits doc options [helperText, (blueprint.program options).byteFunctionText] ∧
      Source.byteFunction? (blueprint.program options).byteText = some function ∧
      function.Splits blueprint.table blueprint.extension ∧
      ∀ word, ∃ value,
        blueprint.extension.Agrees (blueprint.table.owner? (word &&& 0xFF#16).toNat)
          (decoder.decodeExtension word) value ∧
        ∀ other, function.Yields blueprint.extension.types word other ↔ other = value := by
  obtain ⟨decoder, made⟩ := exists_decoder planned
  obtain ⟨-, table, -, follows⟩ := ofDocument_eq_ok planned
  have formed := Spec.wellFormed_of_parse read
  have text : Source.byteFunction? (blueprint.program options).byteText =
      some (.ofByteDispatch (byteDispatch blueprint.table blueprint.extension)
        blueprint.extension.nop) :=
    Source.byteFunction?_byteText (Source.legibleCase_of_mem_arms follows.legible)
      follows.legible.nop.ident
  have splits := Source.ByteFunction.splits_ofByteDispatch follows
  rw [← table] at splits
  have emitted : Emits doc options [helperText, (blueprint.program options).byteFunctionText] :=
    emits planned (List.forall_mem_cons.mpr ⟨Program.helperText_isInfix _,
      List.forall_mem_singleton.mpr (Program.byteFunctionText_isInfix _)⟩)
  refine ⟨decoder, _, made, table, follows, emitted, text, splits, fun word => ?_⟩
  -- an extension is read from its own word only, so any second word gives the same fields
  have decoded (second : Word) (index : Nat)
      (owned : blueprint.table.owner? (word &&& 0xFF#16).toNat = some index) :
      ∃ extension layout, doc.extensions[index]? = some extension ∧
        Layout.ofInstruction extension = .ok layout ∧
          decoder.decodeExtension word = layout.read word second := by
    rw [table] at owned
    obtain ⟨extension, layout, found, laidOut, same⟩ :=
      Decoder.decodeExtension_of_owner? made owned
    have byte := (formed.extension extension (List.mem_of_getElem? found)).2
    refine ⟨extension, layout, found, laidOut, same.trans ?_⟩
    exact Layout.read_eq_of_width laidOut (by rw [byte]; decide) word 0#16 second
  have yields (second : Word) := follows.yields_value
    (fun extension member => (formed.extension extension member).1) (decoded second) []
  have picked := splits.outcome?_eq
    (fun _ => Source.ByteFunction.eq_default_of_mem_otherwise) word
  refine ⟨_, follows.agrees_value (decoded 0#16), fun other => ⟨?_, ?_⟩⟩
  · rintro ⟨outcome, chosen, again⟩
    cases Option.some.inj (picked.symm.trans chosen)
    exact (again 0#16).unique (yields 0#16)
  · rintro rfl
    exact ⟨_, picked, yields⟩

open Decoder in
/-- Bytes of one extension behind the byte of another, a free byte, and a word with fields. -/
theorem byteYields_iff_of_parse_interrupted :
    ∃ doc blueprint function, Spec.parse "interrupted" interrupted = .ok doc ∧
      ofDocument doc = .ok blueprint ∧
      Source.byteFunction? (blueprint.program .standard).byteText = some function ∧
      function.otherwise.isSome = true ∧
      (∃ entry ∈ function.cases, entry.first ≤ 0x17 ∧ 0x17 ≤ entry.last ∧ 0x16 < entry.first) ∧
      function.Yields blueprint.extension.types 0x4020#16 ⟨"EXT_NOP", []⟩ ∧
      ∃ value, function.Yields blueprint.extension.types 0x4017#16 value ∧
        value.type = "EXT_MV_D_S" ∧ value.fields.map (·.name) = ["d", "s"] ∧
        ∀ field ∈ value.fields, field.name = "s" → field.value = 3#16 := by
  obtain ⟨⟨path, digest, instructions, extensions⟩, accepted, main, bytes⟩ :=
    exists_loadText_interrupted
  cases main
  cases bytes
  have read := (Loader.loadText_eq_ok accepted).1
  obtain ⟨blueprint, planned, -⟩ := exists_ofDocument (whole_of_loadText accepted)
  obtain ⟨decoder, function, made, table, follows, -, text, splits, yields⟩ :=
    byteYields_iff_of_parse read planned .standard
  change blueprint.table = .build [halt, move] at table
  have halts : blueprint.table.owner? 0x16 = some 0 := by
    rw [table, ExtensionTable.owner?_build (by decide)]
    decide
  have moves : blueprint.table.owner? 0x17 = some 1 := by
    rw [table, ExtensionTable.owner?_build (by decide)]
    decide
  have free : blueprint.table.owner? 0x20 = none := by
    rw [table, ExtensionTable.owner?_build (by decide)]
    decide
  refine ⟨_, blueprint, function, read, planned, text, ?_, ?_, ?_, ?_⟩
  · exact splits.otherwise.mpr ⟨0x20, by decide, free⟩
  · obtain ⟨entry, member, above, below⟩ := (splits.covers 0x17).mpr (by rw [moves]; rfl)
    obtain ⟨index, type, -, -, owned⟩ := splits.owned entry member
    refine ⟨entry, member, above, below, Nat.lt_of_not_le fun reaches => ?_⟩
    have same := (owned 0x16 reaches (by omega)).trans (owned 0x17 above below).symm
    rw [halts, moves] at same
    cases same
  · obtain ⟨value, agrees, unique⟩ := yields 0x4020#16
    have unowned : blueprint.table.owner? (0x4020#16 &&& 0xFF#16).toNat = none := free
    rw [unowned] at agrees
    refine (unique _).mpr ?_
    cases planned
    cases value
    obtain ⟨type, fields⟩ := agrees
    simp only at type fields
    rw [type, fields]
    rfl
  · obtain ⟨value, agrees, unique⟩ := yields 0x4017#16
    have owned : blueprint.table.owner? (0x4017#16 &&& 0xFF#16).toNat = some 1 := moves
    obtain ⟨extension, layout, found, laidOut, decoded⟩ :=
      decodeExtension_of_owner? made (table ▸ owned)
    cases found
    cases laidOut
    rw [owned, decoded] at agrees
    refine ⟨value, (unique value).mpr rfl, ?_⟩
    cases planned
    obtain ⟨type, listed, ident, names, fields⟩ := agrees
    cases listed
    refine ⟨ident, names, fun field member same => ?_⟩
    have read := fields field member
    rw [same] at read
    exact (Option.some.inj read).symm

end Blueprint

end DspIsa.Generated
