import DspIsa.Generation
import DspIsa.Proofs.Decoding
import DspIsa.Proofs.Names
import Mathlib.Data.List.Nodup
import Mathlib.Data.List.Perm.Subperm

/-! The type names of a generated decoder. Every name handed out is new, so the types of a family
have pairwise different names. -/
namespace DspIsa.Generated

namespace TypeNames

variable {names : TypeNames} {base ident other : String}

theorem isTaken_iff : names.isTaken ident = true ↔ ident ∈ names.taken.map Prod.fst := by
  rw [isTaken, next?, List.lookup_isSome_iff, List.mem_map]
  constructor
  · rintro ⟨entry, member, same⟩
    exact ⟨entry, member, (beq_iff_eq.mp same).symm⟩
  · rintro ⟨entry, member, same⟩
    exact ⟨entry, member, beq_iff_eq.mpr same.symm⟩

theorem isTaken_set (next : Nat) :
    (names.set ident next).isTaken other = true ↔ other = ident ∨ names.isTaken other = true := by
  simp only [isTaken_iff, set, List.map_cons, List.mem_cons, List.mem_map, List.mem_filter]
  constructor
  · rintro (same | ⟨entry, ⟨member, -⟩, named⟩)
    · exact .inl same
    · exact .inr ⟨entry, member, named⟩
  · rintro (same | ⟨entry, member, named⟩)
    · exact .inl same
    · by_cases same : other = ident
      · exact .inl same
      · exact .inr ⟨entry, ⟨member, by rw [named]; exact bne_iff_ne.mpr same⟩, named⟩

/-- Among one more numbers than there are names, one is free. -/
theorem exists_free (names : TypeNames) (base : String) (start : Nat) :
    ∃ number ∈ (List.range (names.taken.length + 1)).map (start + ·),
      names.isTaken (numbered base number) = false := by
  by_contra none
  have crowded : ((List.range (names.taken.length + 1)).map fun offset =>
      numbered base (start + offset)) ⊆ names.taken.map Prod.fst := by
    intro ident member
    obtain ⟨offset, listed, rfl⟩ := List.mem_map.mp member
    rw [← isTaken_iff, ← Bool.not_eq_false]
    exact fun free => none ⟨_, List.mem_map_of_mem listed, free⟩
  have distinct : ((List.range (names.taken.length + 1)).map fun offset =>
      numbered base (start + offset)).Nodup :=
    List.nodup_range.map fun _ _ same => Nat.add_left_cancel (numbered_injective base same)
  have size := (distinct.subperm crowded).length_le
  rw [List.length_map, List.length_map, List.length_range] at size
  exact Nat.not_succ_le_self _ size

theorem isTaken_firstFree (names : TypeNames) (base : String) (start : Nat) :
    names.isTaken (numbered base (names.firstFree base start)) = false := by
  obtain ⟨number, listed, free⟩ := exists_free names base start
  rw [firstFree]
  cases found : ((List.range (names.taken.length + 1)).map (start + ·)).find?
      (fun number => !names.isTaken (numbered base number)) with
  | none => simpa [free] using List.find?_eq_none.mp found number listed
  | some first => simpa using List.find?_some found

/-- A name handed out was free before and is taken from then on, and no other name changes. -/
structure Fresh (names : TypeNames) (handed : String × TypeNames) : Prop where
  free : names.isTaken handed.1 = false
  taken : ∀ other, handed.2.isTaken other = true ↔
    other = handed.1 ∨ names.isTaken other = true

theorem fresh_claim (names : TypeNames) (base : String) : names.Fresh (names.claim base) := by
  unfold claim
  split
  · rename_i free
    exact ⟨by rw [isTaken, free]; rfl, fun _ => isTaken_set 1⟩
  · rename_i start taken
    refine ⟨isTaken_firstFree names base start, fun other => ?_⟩
    have used : names.isTaken base = true := by rw [isTaken, taken]; rfl
    rw [isTaken_set, isTaken_set]
    constructor
    · rintro (same | rfl | member)
      · exact .inl same
      · exact .inr used
      · exact .inr member
    · rintro (same | member)
      · exact .inl same
      · exact .inr (.inr member)

/-- The name asked for is taken afterwards, handed out now or earlier. -/
theorem isTaken_claim (names : TypeNames) (base : String) :
    (names.claim base).2.isTaken base = true := by
  rw [(names.fresh_claim base).taken]
  cases free : names.next? base with
  | none => exact .inl (by rw [claim, free])
  | some start => exact .inr (by rw [isTaken, free]; rfl)

end TypeNames

namespace OpcodeType

/-- Claims that hand out new names, each of them one word. -/
structure Naming (claim : TypeNames → String → String × TypeNames) : Prop where
  fresh : ∀ names opcode, TypeNames.Fresh names (claim names opcode)
  name : ∀ names opcode, IsName (claim names opcode).1

theorem naming_claimMain : Naming TypeNames.claimMain :=
  ⟨fun names _ => names.fresh_claim _, fun names opcode =>
    TypeNames.isName_claim (isName_typeIdent opcode) names⟩

theorem naming_claimExtension : Naming TypeNames.claimExtension :=
  ⟨fun names _ => names.fresh_claim _, fun names opcode =>
    TypeNames.isName_claim (isIdentifier_extension opcode).toIsName names⟩

/-- What declaring types achieves: one type per instruction, under new names. -/
structure Declared (names : TypeNames) (instructions : List Instruction)
    (types : List OpcodeType) (after : TypeNames) : Prop where
  each : List.Forall₂ (fun instr type => ofInstruction instr type.ident = .ok type)
    instructions types
  nodup : (types.map (·.ident)).Nodup
  isName : ∀ type ∈ types, IsName type.ident
  free : ∀ type ∈ types, names.isTaken type.ident = false
  taken : ∀ other, after.isTaken other = true ↔
    other ∈ types.map (·.ident) ∨ names.isTaken other = true

variable {claim : TypeNames → String → String × TypeNames}

theorem declare_cons_eq_ok {instr : Instruction} {rest : List Instruction}
    {names after : TypeNames} {types : List OpcodeType}
    (made : declare claim names (instr :: rest) = .ok (types, after)) :
    ∃ type others, ofInstruction instr (claim names instr.name).1 = .ok type ∧
      declare claim (claim names instr.name).2 rest = .ok (others, after) ∧
      types = type :: others := by
  rw [declare] at made
  cases first : ofInstruction instr (claim names instr.name).1 with
  | error fault => simp [first, bind, Except.bind] at made
  | ok type =>
    cases others : declare claim (claim names instr.name).2 rest with
    | error fault => simp [first, others, bind, Except.bind] at made
    | ok declared =>
      obtain ⟨more, last⟩ := declared
      simp only [first, others, bind, Except.bind, pure, Except.pure] at made
      cases made
      exact ⟨type, more, rfl, rfl, rfl⟩

theorem ofInstruction_eq_ok {instr : Instruction} {ident : String} {type : OpcodeType}
    (made : ofInstruction instr ident = .ok type) :
    ∃ sources, OperandSource.resolveAll instr = .ok sources ∧
      type = ⟨ident, instr.width.bits,
        (List.zipWith (fun name source => ⟨name, .ofSource source⟩)
          instr.fieldNames sources).reverse⟩ := by
  unfold ofInstruction at made
  cases resolved : OperandSource.resolveAll instr with
  | error fault => simp [resolved, bind, Except.bind] at made
  | ok sources =>
    simp only [resolved, bind, Except.bind, pure, Except.pure] at made
    cases made
    exact ⟨sources, rfl, rfl⟩

/-- The fields of a type have the names of the instruction's fields, the last one first. -/
theorem map_name_fields {instr : Instruction} {ident : String} {type : OpcodeType}
    (made : ofInstruction instr ident = .ok type) :
    type.fields.map Field.name = instr.fieldNames.reverse := by
  obtain ⟨sources, resolved, rfl⟩ := ofInstruction_eq_ok made
  have size : instr.fieldNames.length = sources.length := by
    rw [length_of_mapM resolved, instr.length_fieldNames]
  have names := List.map_fst_zip (Nat.le_of_eq size)
  rw [List.map_zip_eq_zipWith] at names
  rw [List.map_reverse, List.map_zipWith]
  exact congrArg List.reverse names

theorem declared_of_declare (naming : Naming claim) {instructions : List Instruction}
    {names after : TypeNames} {types : List OpcodeType}
    (made : declare claim names instructions = .ok (types, after)) :
    Declared names instructions types after := by
  induction instructions generalizing names types with
  | nil =>
    cases made
    exact ⟨.nil, List.nodup_nil, by simp, by simp, by simp⟩
  | cons instr rest ih =>
    obtain ⟨type, others, first, more, rfl⟩ := declare_cons_eq_ok made
    have fresh := naming.fresh names instr.name
    have name := naming.name names instr.name
    have later := ih more
    obtain ⟨sources, -, shape⟩ := ofInstruction_eq_ok first
    have ident : type.ident = (claim names instr.name).1 := by rw [shape]
    rw [← ident] at first name
    constructor
    · exact .cons first later.each
    · rw [List.map_cons, List.nodup_cons]
      refine ⟨fun repeated => ?_, later.nodup⟩
      obtain ⟨other, member, same⟩ := List.mem_map.mp repeated
      have free := later.free other member
      rw [same, ident, ← Bool.not_eq_true, fresh.taken] at free
      exact free (.inl rfl)
    · exact List.forall_mem_cons.mpr ⟨name, later.isName⟩
    · refine List.forall_mem_cons.mpr ⟨by rw [ident]; exact fresh.free, fun other member => ?_⟩
      have free := later.free other member
      rw [← Bool.not_eq_true, fresh.taken, not_or] at free
      exact (Bool.not_eq_true _).mp free.2
    · intro other
      rw [later.taken, fresh.taken, List.map_cons, List.mem_cons, ident, or_left_comm, or_assoc]

theorem exists_ofInstruction {instr : Instruction} (whole : instr.straddling = [])
    (ident : String) : ∃ type, ofInstruction instr ident = .ok type := by
  obtain ⟨sources, resolved⟩ := OperandSource.exists_resolveAll whole
  rw [ofInstruction, resolved]
  exact ⟨_, rfl⟩

theorem exists_declare (claim : TypeNames → String → String × TypeNames) (names : TypeNames)
    {instructions : List Instruction}
    (whole : ∀ instr ∈ instructions, instr.straddling = []) :
    ∃ types after, declare claim names instructions = .ok (types, after) := by
  induction instructions generalizing names with
  | nil => exact ⟨[], names, rfl⟩
  | cons instr rest ih =>
    obtain ⟨head, later⟩ := List.forall_mem_cons.mp whole
    obtain ⟨type, first⟩ := exists_ofInstruction head (claim names instr.name).1
    obtain ⟨types, after, others⟩ := ih (claim names instr.name).2 later
    exact ⟨type :: types, after, by
      simp only [declare, first, others, bind, Except.bind, pure, Except.pure]⟩

end OpcodeType

namespace Family

/-- A family whose types have pairwise different one-word names, the no-op among them. -/
structure Named (family : Family) : Prop where
  nodup : (family.types.map (·.ident)).Nodup
  isName : ∀ type ∈ family.types, IsName type.ident
  nop : family.nop ∈ family.types

/-- There is one type per instruction. The no-op is the type of the first instruction with the name
of one; where there is none, it is one more type, without fields. -/
def HasNop (family : Family) (instructions : List Instruction) : Prop :=
  match instructions.findIdx? fun instr => instr.name == fallbackName with
  | some index =>
    family.types.length = instructions.length ∧ family.types[index]? = some family.nop
  | none =>
    family.types.length = instructions.length + 1 ∧
      family.types[instructions.length]? = some family.nop ∧ family.nop.fields = []

variable {claim : TypeNames → String → String × TypeNames} {instructions : List Instruction}
  {types : List OpcodeType} {names : TypeNames}

/-- Completing a family keeps the declared types and picks or adds its no-op. -/
theorem named_complete (naming : OpcodeType.Naming claim)
    (nodup : (types.map (·.ident)).Nodup) (isName : ∀ type ∈ types, IsName type.ident)
    (taken : ∀ type ∈ types, names.isTaken type.ident = true) :
    (complete claim names instructions types).1.Named := by
  unfold complete
  split
  · rename_i instr nop found
    exact ⟨nodup, isName, (List.of_mem_zip (List.mem_of_find?_eq_some found)).2⟩
  · have fresh := naming.fresh names fallbackName
    refine ⟨?_, ?_, by simp⟩
    · rw [List.map_append, List.nodup_append]
      refine ⟨nodup, List.nodup_singleton _, ?_⟩
      intro ident member other last same
      obtain ⟨type, listed, rfl⟩ := List.mem_map.mp member
      rw [List.map_singleton, List.mem_singleton] at last
      have clash : type.ident = (claim names fallbackName).1 := same.trans last
      have free := taken type listed
      rw [clash, fresh.free] at free
      cases free
    · refine List.forall_mem_append.mpr ⟨isName, List.forall_mem_singleton.mpr ?_⟩
      exact naming.name names fallbackName

theorem getElem?_complete {index : Nat} {type : OpcodeType}
    (found : types[index]? = some type) :
    (complete claim names instructions types).1.types[index]? = some type := by
  unfold complete
  split
  · exact found
  · rw [List.getElem?_append_left (List.getElem?_eq_some_iff.mp found).1]
    exact found

theorem hasNop_complete (same : types.length = instructions.length) :
    (complete claim names instructions types).1.HasNop instructions := by
  have firsts : (instructions.zip types).map Prod.fst = instructions :=
    List.map_fst_zip (Nat.le_of_eq same.symm)
  have index : (instructions.zip types).findIdx? (fun entry => entry.1.name == fallbackName) =
      instructions.findIdx? fun instr => instr.name == fallbackName := by
    conv => rhs; rw [← firsts, List.findIdx?_map]
    rfl
  rw [complete, HasNop, List.find?_eq_bind_findIdx?_getElem?, index]
  cases found : instructions.findIdx? fun instr => instr.name == fallbackName with
  | none => simp [same, OpcodeType.bare]
  | some place =>
    have inside := (List.findIdx?_eq_some_iff_getElem.mp found).1
    have pair : (instructions.zip types)[place]? = some (instructions[place], types[place]) := by
      rw [List.getElem?_eq_getElem (by simp; omega), List.getElem_zip]
    simp [pair, same]

/-- What a family owes to the instructions it is made for. -/
structure Follows (family : Family) (instructions : List Instruction) : Prop where
  named : family.Named
  nop : family.HasNop instructions
  each : ∀ (index : Nat) (instr : Instruction), instructions[index]? = some instr →
    ∃ type, family.types[index]? = some type ∧
      OpcodeType.ofInstruction instr type.ident = .ok type

theorem follows_complete (naming : OpcodeType.Naming claim) {before after : TypeNames}
    (declared : OpcodeType.Declared before instructions types after)
    (taken : ∀ type ∈ types, names.isTaken type.ident = true) :
    (complete claim names instructions types).1.Follows instructions := by
  refine ⟨named_complete naming declared.nodup declared.isName taken,
    hasNop_complete declared.each.length_eq.symm, fun index instr found => ?_⟩
  obtain ⟨inside, same⟩ := List.getElem?_eq_some_iff.mp found
  have listed := inside
  rw [declared.each.length_eq] at listed
  refine ⟨types[index], getElem?_complete (List.getElem?_eq_getElem listed), ?_⟩
  have pair := declared.each.get inside listed
  simpa [same] using pair

/-- Completing a family frees no name. -/
theorem isTaken_complete (naming : OpcodeType.Naming claim) {other : String}
    (taken : names.isTaken other = true) :
    (complete claim names instructions types).2.isTaken other = true := by
  unfold complete
  split
  · exact taken
  · exact ((naming.fresh names fallbackName).taken other).mpr (.inr taken)

variable {family : Family}

/-- No instruction of a family has an operand without a source. -/
theorem Follows.exists_resolveAll (follows : family.Follows instructions) {instr : Instruction}
    (member : instr ∈ instructions) :
    ∃ sources, OperandSource.resolveAll instr = .ok sources := by
  obtain ⟨index, found⟩ := List.mem_iff_getElem?.mp member
  obtain ⟨type, -, made⟩ := follows.each index instr found
  obtain ⟨sources, resolved, -⟩ := OpcodeType.ofInstruction_eq_ok made
  exact ⟨sources, resolved⟩

/-- A field of a type of the family is one of an instruction's; an added no-op has none. -/
theorem Follows.exists_mem_fieldNames (follows : family.Follows instructions) {type : OpcodeType}
    (member : type ∈ family.types) {field : Field} (listed : field ∈ type.fields) :
    ∃ instr ∈ instructions, field.name ∈ instr.fieldNames := by
  obtain ⟨index, found⟩ := List.mem_iff_getElem?.mp member
  obtain ⟨size, -⟩ := List.getElem?_eq_some_iff.mp found
  by_cases inside : index < instructions.length
  · obtain ⟨other, same, made⟩ := follows.each index _ (List.getElem?_eq_getElem inside)
    cases Option.some.inj (found.symm.trans same)
    have name := List.mem_map_of_mem (f := Field.name) listed
    rw [OpcodeType.map_name_fields made, List.mem_reverse] at name
    exact ⟨_, List.getElem_mem inside, name⟩
  · have nop := follows.nop
    unfold Family.HasNop at nop
    split at nop
    · omega
    · obtain ⟨count, last, bare⟩ := nop
      have place : index = instructions.length := by omega
      rw [place, last] at found
      cases found
      rw [bare] at listed
      cases listed

/-- All fields of the types of a family have legal names. -/
theorem Follows.isIdentifier_field (follows : family.Follows instructions) {type : OpcodeType}
    (member : type ∈ family.types) {field : Field} (listed : field ∈ type.fields) :
    IsIdentifier field.name := by
  obtain ⟨instr, -, name⟩ := follows.exists_mem_fieldNames member listed
  exact isIdentifier_of_mem_fieldNames name

end Family

namespace Blueprint

/-- What the main family of a blueprint owes to the document. -/
structure Follows (blueprint : Blueprint) (doc : Document) : Prop where
  tree : blueprint.tree = .build doc.instructions
  named : blueprint.main.Named
  nop : blueprint.main.HasNop doc.instructions
  each : ∀ (index : Nat) (instr : Instruction), doc.instructions[index]? = some instr →
    ∃ type, blueprint.main.types[index]? = some type ∧
      OpcodeType.ofInstruction instr type.ident = .ok type

variable {doc : Document} {blueprint : Blueprint}

theorem Follows.main (follows : blueprint.Follows doc) :
    blueprint.main.Follows doc.instructions :=
  ⟨follows.named, follows.nop, follows.each⟩

/-- The main instructions are declared first, then the extensions; the no-ops come last. -/
theorem exists_declared (planned : ofDocument doc = .ok blueprint) :
    ∃ mainTypes names extensionTypes after,
      OpcodeType.declare TypeNames.claimMain .empty doc.instructions = .ok (mainTypes, names) ∧
      OpcodeType.declare TypeNames.claimExtension names doc.extensions =
        .ok (extensionTypes, after) ∧
      let main := Family.complete TypeNames.claimMain after doc.instructions mainTypes
      blueprint = ⟨doc, .build doc.instructions, .build doc.extensions, main.1,
        (Family.complete TypeNames.claimExtension main.2 doc.extensions extensionTypes).1⟩ := by
  unfold ofDocument at planned
  cases main : OpcodeType.declare TypeNames.claimMain .empty doc.instructions with
  | error fault => simp [main, bind, Except.bind] at planned
  | ok declared =>
    obtain ⟨mainTypes, names⟩ := declared
    cases extension : OpcodeType.declare TypeNames.claimExtension names doc.extensions with
    | error fault => simp [main, extension, bind, Except.bind] at planned
    | ok others =>
      obtain ⟨extensionTypes, after⟩ := others
      simp only [main, extension, bind, Except.bind, pure, Except.pure] at planned
      cases planned
      exact ⟨mainTypes, names, extensionTypes, after, rfl, extension, rfl⟩

theorem document_of_planned (planned : ofDocument doc = .ok blueprint) :
    blueprint.document = doc := by
  obtain ⟨_, _, _, _, _, _, rfl⟩ := exists_declared planned
  rfl

theorem emit_of_planned (planned : ofDocument doc = .ok blueprint) (options : Options) :
    (doc.emit options).value = .ok (blueprint.program options).text := by
  rw [Document.emit, Document.blueprint, planned]
  rfl

/-- A blueprint holds what the document's lists give, both families under different names. -/
theorem ofDocument_eq_ok (planned : ofDocument doc = .ok blueprint) :
    blueprint.tree = .build doc.instructions ∧ blueprint.table = .build doc.extensions ∧
      blueprint.main.Follows doc.instructions ∧ blueprint.extension.Follows doc.extensions := by
  obtain ⟨mainTypes, names, extensionTypes, after, main, extension, rfl⟩ := exists_declared planned
  have first := OpcodeType.declared_of_declare OpcodeType.naming_claimMain main
  have second := OpcodeType.declared_of_declare OpcodeType.naming_claimExtension extension
  refine ⟨rfl, rfl, Family.follows_complete OpcodeType.naming_claimMain first ?_,
    Family.follows_complete OpcodeType.naming_claimExtension second ?_⟩
  · intro type member
    exact (second.taken _).mpr
      (.inr ((first.taken _).mpr (.inl (List.mem_map_of_mem member))))
  · intro type member
    refine Family.isTaken_complete OpcodeType.naming_claimMain ?_
    exact (second.taken _).mpr (.inl (List.mem_map_of_mem member))

/-- A document without straddling operands has a blueprint. -/
theorem exists_ofDocument
    (whole : ∀ instr ∈ doc.instructions ++ doc.extensions, instr.straddling = []) :
    ∃ blueprint, ofDocument doc = .ok blueprint ∧ blueprint.Follows doc := by
  obtain ⟨mainTypes, names, main⟩ := OpcodeType.exists_declare TypeNames.claimMain .empty
    fun instr member => whole instr (List.mem_append_left _ member)
  obtain ⟨bytes, after, extension⟩ := OpcodeType.exists_declare TypeNames.claimExtension names
    fun instr member => whole instr (List.mem_append_right _ member)
  obtain ⟨blueprint, made⟩ : ∃ blueprint, ofDocument doc = .ok blueprint := by
    simp only [ofDocument, main, extension, bind, Except.bind, pure, Except.pure]
    exact ⟨_, rfl⟩
  obtain ⟨tree, -, family, -⟩ := ofDocument_eq_ok made
  exact ⟨blueprint, made, tree, family.named, family.nop, family.each⟩

end Blueprint

end DspIsa.Generated
