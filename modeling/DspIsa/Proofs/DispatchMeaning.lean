import DspIsa.Proofs.Decoding
import DspIsa.Proofs.DispatchText

/-! What dispatch functions yield for two words. A shift by a word's width or more and a difference
below zero have no result. -/
namespace DspIsa.Generated

namespace Source

/-- A value of the family: its variant and the fields of the type inside. -/
structure Value where
  type : String
  fields : List FieldValue
  deriving DecidableEq, Repr

/-- What the functions can refer to. -/
structure Scope where
  types : List OpcodeType
  functions : List Function
  deriving DecidableEq, Repr

namespace Scope

def type? (scope : Scope) (ident : String) : Option OpcodeType :=
  scope.types.find? (·.ident == ident)

def function? (scope : Scope) (name : String) : Option Function :=
  scope.functions.find? (·.name == name)

end Scope

def word (first second : Word) : Input → Word
  | .instruction => first
  | .nextInstruction => second

/-- The helper for one bit. -/
def bit (word : Word) (index : Nat) : Option Word :=
  if index < 16 then some ((word >>> index) &&& 1#16) else none

/-- The helper for a range of bits. -/
def bits (word : Word) (low high : Nat) : Option Word :=
  if low < 16 ∧ low ≤ high ∧ high - low + 1 < 32 then
    some ((word >>> low) &&& ((1#32 <<< (high - low + 1)) - 1#32).setWidth 16)
  else none

def read (first second : Word) : FieldRead → Option Word
  | .whole input => some (word first second input)
  | .bit input index => bit (word first second input) index
  | .bits input low high => bits (word first second input) low high

/-- A field gets the value of its expression. -/
structure Reads (first second : Word) (field : Field) (value : FieldValue) : Prop where
  name : field.name = value.name
  value : read first second field.source = some value.value

/-- One line `index |= ((instruction >> bit) & 0x1) << slotBit`. -/
def addBit (first index : Word) (entry : IndexBit) : Option Word :=
  if entry.bit < 16 ∧ entry.slotBit < 16 then
    some (index ||| ((first >>> entry.bit) &&& 1#16) <<< entry.slotBit)
  else none

/-- The index, which starts at zero. -/
def index? (first : Word) (indexBits : List IndexBit) : Option Word :=
  indexBits.foldlM (addBit first) 0#16

/-- What is left to evaluate once the index has picked its arm. -/
def Body.outcome? (first : Word) : Body → Option Outcome
  | .value outcome => some outcome
  | .dispatch indexBits arms otherwise =>
    (index? first indexBits).map fun index =>
      ((arms.find? fun arm => arm.1 == index.toNat).map Prod.snd).getD otherwise

/-- The value of an expression. A value of a type gives each of its declared fields once. -/
inductive Yields (scope : Scope) (first second : Word) : Outcome → Value → Prop where
  | construct {type : String} {fields : List Field} {declared : OpcodeType}
      {values : List FieldValue} (found : scope.type? type = some declared)
      (given : (fields.map (·.name)).Perm (declared.fields.map (·.name)))
      (read : List.Forall₂ (Reads first second) fields values) :
      Yields scope first second (.construct type fields) ⟨type, values⟩
  | default {type : String} {declared : OpcodeType} (found : scope.type? type = some declared) :
      Yields scope first second (.default type)
        ⟨type, declared.fields.map fun field => ⟨field.name, 0#16⟩⟩
  | call {name : String} {function : Function} {outcome : Outcome} {value : Value}
      (found : scope.function? name = some function)
      (chosen : function.body.outcome? first = some outcome)
      (yields : Yields scope first second outcome value) :
      Yields scope first second (.call name) value

theorem Reads.unique {first second : Word} : Relator.RightUnique (Reads first second) := by
  intro field value other reads again
  have same := Option.some.inj (reads.value.symm.trans again.value)
  cases value
  cases other
  cases same
  cases reads.name.symm.trans again.name
  rfl

namespace Yields

variable {scope : Scope} {first second : Word}

/-- No expression has two values. -/
theorem unique {outcome : Outcome} {value other : Value}
    (yields : Yields scope first second outcome value)
    (again : Yields scope first second outcome other) : value = other := by
  induction yields with
  | construct found given read =>
    cases again with
    | construct _ _ readAgain => rw [Reads.unique.forall₂ read readAgain]
  | default found =>
    cases again with
    | default foundAgain => rw [Option.some.inj (found.symm.trans foundAgain)]
  | call found chosen yields ih =>
    cases again with
    | call foundAgain chosenAgain later =>
      cases Option.some.inj (found.symm.trans foundAgain)
      cases Option.some.inj (chosen.symm.trans chosenAgain)
      exact ih later

end Yields

section Index

theorem getLsbD_lowBit (word : Word) (index bit : Nat) :
    ((word >>> index) &&& 1#16).getLsbD bit = (decide (bit = 0) && word.getLsbD index) := by
  rw [BitVec.getLsbD_and, BitVec.getLsbD_ushiftRight]
  cases bit with
  | zero => simp
  | succ bit => simp

theorem testBit_gatherAt_cons (value : Word) (position : Nat) (positions : List Nat) (bit : Nat) :
    (Bits.gatherAt value (position :: positions)).testBit bit =
      if bit = 0 then value.getLsbD position
      else (Bits.gatherAt value positions).testBit (bit - 1) := by
  rw [Bits.testBit_gatherAt, Bits.testBit_gatherAt]
  cases bit <;> simp

/-- The bit at the first position and the bits at the others, packed one place further up. -/
theorem lowBit_or_gatherAt (value : Word) (position : Nat) (positions : List Nat) (start : Nat) :
    (((value >>> position) &&& 1#16) <<< start |||
      BitVec.ofNat 16 (Bits.gatherAt value positions) <<< (start + 1)) =
        BitVec.ofNat 16 (Bits.gatherAt value (position :: positions)) <<< start := by
  apply BitVec.eq_of_getLsbD_eq
  intro bit small
  rw [BitVec.getLsbD_or, BitVec.getLsbD_shiftLeft, BitVec.getLsbD_shiftLeft,
    BitVec.getLsbD_shiftLeft, getLsbD_lowBit, BitVec.getLsbD_ofNat, BitVec.getLsbD_ofNat,
    testBit_gatherAt_cons]
  rcases Nat.lt_trichotomy bit start with below | rfl | above
  · simp [below, Nat.lt_succ_of_lt below]
  · simp [small]
  · have low : ¬ bit < start := by omega
    have high : ¬ bit < start + 1 := by omega
    have other : bit - start ≠ 0 := by omega
    have offset : bit - (start + 1) = bit - start - 1 := by omega
    have fits : bit - start < 16 := by omega
    have lower : bit - start - 1 < 16 := by omega
    simp [small, low, high, other, offset, fits, lower]

theorem foldlM_addBit (first : Word) (positions : List Nat) (start : Nat) (index : Word)
    (inside : ∀ bit ∈ positions, bit < 16) (room : start + positions.length ≤ 16) :
    ((positions.zipIdx start).map fun (bit, slotBit) => (⟨bit, slotBit⟩ : IndexBit)).foldlM
        (addBit first) index =
      some (index ||| (BitVec.ofNat 16 (Bits.gatherAt first positions)) <<< start) := by
  induction positions generalizing start index with
  | nil => simp [Bits.gatherAt]
  | cons position positions ih =>
    obtain ⟨here, later⟩ := List.forall_mem_cons.mp inside
    rw [List.length_cons] at room
    have added : addBit first index ⟨position, start⟩ =
        some (index ||| ((first >>> position) &&& 1#16) <<< start) :=
      if_pos ⟨here, by simp only; omega⟩
    rw [List.zipIdx_cons, List.map_cons, List.foldlM_cons, added]
    change List.foldlM _ _ _ = _
    rw [ih (start + 1) _ later (by omega), BitVec.or_assoc, lowBit_or_gatherAt]

theorem length_setBits_le (mask : Word) : (Bits.setBits mask).length ≤ 16 := by
  have bound := List.length_filter_le (fun bit => mask.getLsbD bit) (List.range 16)
  rwa [List.length_range] at bound

/-- The lines before a match compute the number of the slot. -/
theorem toNat_index?_indexBits (first mask : Word) :
    (index? first (indexBits mask)).map BitVec.toNat = some (Bits.gather first mask) := by
  have room : 0 + (Bits.setBits mask).length ≤ 16 := by
    rw [Nat.zero_add]
    exact length_setBits_le mask
  have inside (bit : Nat) (listed : bit ∈ Bits.setBits mask) : bit < 16 :=
    BitVec.lt_of_getLsbD (Bits.mem_setBits.mp listed)
  have bound : Bits.gather first mask < 2 ^ 16 :=
    Nat.lt_of_lt_of_le (Bits.gather_lt first mask) (Nat.pow_le_pow_right (by decide) (by omega))
  rw [index?, indexBits, foldlM_addBit first _ 0 0#16 inside room]
  simp only [Option.map_some, BitVec.zero_or, BitVec.shiftLeft_zero, BitVec.toNat_ofNat]
  exact congrArg some (Nat.mod_eq_of_lt bound)

end Index

section Operands

variable {word : Word} {low high : Nat}

theorem bit_eq_extract (inside : low < 16) :
    bit word low = some ((Bits.extract (word.setWidth 32) low low).setWidth 16) := by
  refine (if_pos inside).trans (congrArg some ?_)
  apply BitVec.eq_of_getLsbD_eq
  intro place small
  rw [getLsbD_lowBit, BitVec.getLsbD_setWidth, Bits.getLsbD_extract, BitVec.getLsbD_setWidth,
    Nat.sub_self, Nat.zero_add]
  cases place with
  | zero =>
    have wide : low < 32 := by omega
    simp [wide]
  | succ place => simp

theorem bits_eq_extract (ordered : low ≤ high) (inside : high < 16) :
    bits word low high = some ((Bits.extract (word.setWidth 32) low high).setWidth 16) := by
  have narrow : high - low + 1 < 32 := by omega
  refine (if_pos ⟨by omega, ordered, narrow⟩).trans (congrArg some ?_)
  have ones : (1#32 <<< (high - low + 1)) - 1#32 = Bits.lowMask (high - low + 1) :=
    (if_neg (by omega)).symm
  apply BitVec.eq_of_getLsbD_eq
  intro place small
  rw [ones, BitVec.getLsbD_and, BitVec.getLsbD_ushiftRight, BitVec.getLsbD_setWidth,
    BitVec.getLsbD_setWidth, Bits.getLsbD_lowMask, Bits.getLsbD_extract, BitVec.getLsbD_setWidth]
  by_cases covered : place < high - low + 1
  · have wide : low + place < 32 := by omega
    have short : place < 32 := by omega
    simp [small, covered, wide, short]
  · simp [covered]

theorem read_ofRange (input : Input) (first second : Word) (ordered : low ≤ high)
    (inside : high < 16) : read first second (.ofRange input low high) = some
      ((Bits.extract ((Source.word first second input).setWidth 32) low high).setWidth 16) := by
  rw [FieldRead.ofRange]
  split
  · rename_i single
    cases single
    exact bit_eq_extract inside
  · exact bits_eq_extract ordered inside

/-- A range within the low byte reads the same out of the whole word. -/
theorem extract_lowByte (word : Word) (ordered : low ≤ high) (inside : high < 8) :
    Bits.extract ((word &&& 0xFF#16).setWidth 32) low high =
      Bits.extract (word.setWidth 32) low high := by
  apply BitVec.eq_of_getLsbD_eq
  intro place _
  rw [Bits.getLsbD_extract, Bits.getLsbD_extract, BitVec.getLsbD_setWidth,
    BitVec.getLsbD_setWidth, getLsbD_lowByte]
  by_cases covered : place < high - low + 1
  · have below : low + place < 8 := by omega
    simp [below]
  · simp [covered]

/-- An operand gets the value that its source reads. -/
theorem read_ofSource {instr : Instruction} {operand : Operand} {source : OperandSource}
    (ordered : operand.low ≤ operand.high) (inside : operand.high < instr.width.bits)
    (resolved : OperandSource.resolve instr operand = .ok source) (first second : Word) :
    read first second (.ofSource source) = some (source.read first second) := by
  cases width : instr.width with
  | bits8 =>
    rw [width] at inside
    change operand.high < 8 at inside
    simp only [OperandSource.resolve, width] at resolved
    cases resolved
    rw [OperandSource.read, extract_lowByte first ordered inside]
    exact read_ofRange .instruction first second ordered (by omega)
  | bits16 =>
    rw [width] at inside
    simp only [OperandSource.resolve, width] at resolved
    cases resolved
    exact read_ofRange .instruction first second ordered inside
  | bits32 =>
    rw [width] at inside
    change operand.high < 32 at inside
    simp only [OperandSource.resolve, width] at resolved
    split at resolved
    · rename_i upper
      cases resolved
      exact read_ofRange .instruction first second (by omega) (by omega)
    split at resolved
    · cases resolved
      rfl
    split at resolved
    · rename_i lower
      cases resolved
      exact read_ofRange .nextInstruction first second ordered lower
    · cases resolved

theorem forall₂_reads {first second : Word} {names : List String} {sources : List OperandSource}
    (each : ∀ source ∈ sources,
      read first second (.ofSource source) = some (source.read first second)) :
    List.Forall₂ (Reads first second)
      (List.zipWith (fun name source => ⟨name, .ofSource source⟩) names sources)
      (List.zipWith (fun name source => ⟨name, source.read first second⟩) names sources) := by
  induction names generalizing sources with
  | nil => exact .nil
  | cons name names ih =>
    cases sources with
    | nil => exact .nil
    | cons source sources =>
      obtain ⟨head, later⟩ := List.forall_mem_cons.mp each
      exact .cons ⟨rfl, head⟩ (ih later)

/-- The fields of an instruction's type get the values that the reference decoder reads; the type
has its highest operand first. -/
theorem reads_fields {instr : Instruction} {layout : Layout} {ident : String} {type : OpcodeType}
    (laid : instr.WellLaid)
    (made : OpcodeType.ofInstruction instr ident = .ok type)
    (laidOut : Layout.ofInstruction instr = .ok layout) (first second : Word) :
    List.Forall₂ (Reads first second) type.fields (layout.read first second).fields.reverse := by
  obtain ⟨sources, resolved, rfl⟩ := OpcodeType.ofInstruction_eq_ok made
  have same : sources = layout.sources :=
    Except.ok.inj (resolved.symm.trans (Layout.ofInstruction_eq_ok laidOut).2)
  rw [Layout.fields_read laidOut, ← same, List.forall₂_reverse_iff]
  refine forall₂_reads fun source member => ?_
  obtain ⟨operand, listed, found⟩ := mem_of_mapM resolved member
  obtain ⟨ordered, inside⟩ := laid.ordered operand listed
  exact read_ofSource ordered inside found first second

end Operands

/-- What is left to evaluate when the tree leads to an instruction or to none. -/
def Outcome.ofLookup (family : Family) : Option Nat → Outcome
  | some index => .ofArmBody (.construct (family.types[index]?.getD family.nop))
  | none => .default family.nop.ident

end Source

namespace Family

/-- What a value built from two words owes to the decoded operation. The variant is the type of the
instruction with this number, and each field of that type is the operation's field of this name;
without a number, it is the default value of the no-op. -/
def Agrees (family : Family) (hit : Option Nat) (op : Operation) (value : Source.Value) : Prop :=
  match hit with
  | some index =>
    ∃ type, family.types[index]? = some type ∧ value.type = type.ident ∧
      value.fields.map (·.name) = type.fields.map (·.name) ∧
      ∀ field ∈ value.fields, op.field? field.name = some field.value
  | none =>
    value.type = family.nop.ident ∧
      value.fields = family.nop.fields.map fun field => ⟨field.name, 0#16⟩

/-- The value that is built for a decoded operation, its highest operand first. -/
def value (family : Family) (op : Operation) : Option Nat → Source.Value
  | some index => ⟨(family.types[index]?.getD family.nop).ident, op.fields.reverse⟩
  | none => ⟨family.nop.ident, family.nop.fields.map fun field => ⟨field.name, 0#16⟩⟩

variable {family : Family} {instructions : List Instruction} {hit : Option Nat} {op : Operation}
  {first second : Word}

theorem Follows.agrees_value (follows : family.Follows instructions)
    (decoded : ∀ index, hit = some index → ∃ instr layout, instructions[index]? = some instr ∧
      Layout.ofInstruction instr = .ok layout ∧ op = layout.read first second) :
    family.Agrees hit op (family.value op hit) := by
  cases hit with
  | none => exact ⟨rfl, rfl⟩
  | some index =>
    obtain ⟨instr, layout, found, laidOut, rfl⟩ := decoded index rfl
    obtain ⟨type, listed, typed⟩ := follows.each index instr found
    have names := Layout.map_name_read laidOut first second
    rw [value, listed]
    refine ⟨type, listed, rfl, ?_, fun field member => ?_⟩
    · rw [List.map_reverse, names, OpcodeType.map_name_fields typed]
    · obtain ⟨place, there⟩ := List.mem_iff_getElem?.mp (List.mem_reverse.mp member)
      refine Operation.field?_of_getElem? ?_ there
      rw [names]
      exact instr.nodup_fieldNames

/-- What is built for an instruction that was found, or for none, has this value. -/
theorem Follows.yields_value (follows : family.Follows instructions)
    (laid : ∀ instr ∈ instructions, instr.WellLaid)
    (decoded : ∀ index, hit = some index → ∃ instr layout, instructions[index]? = some instr ∧
      Layout.ofInstruction instr = .ok layout ∧ op = layout.read first second)
    (functions : List Source.Function) :
    Source.Yields ⟨family.types, functions⟩ first second (.ofLookup family hit)
      (family.value op hit) := by
  have declared (type : OpcodeType) (member : type ∈ family.types) :
      Source.Scope.type? ⟨family.types, functions⟩ type.ident = some type :=
    find?_of_nodup_map follows.named.nodup member
  cases hit with
  | none => exact .default (declared _ follows.named.nop)
  | some index =>
    obtain ⟨instr, layout, found, laidOut, rfl⟩ := decoded index rfl
    obtain ⟨type, listed, typed⟩ := follows.each index instr found
    rw [Source.Outcome.ofLookup, value, listed]
    exact .construct (declared type (List.mem_of_getElem? listed)) (.refl _)
      (Source.reads_fields (laid instr (List.mem_of_getElem? found)) typed laidOut first second)

end Family

end DspIsa.Generated
