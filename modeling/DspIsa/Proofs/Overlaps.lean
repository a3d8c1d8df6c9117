import DspIsa.Proofs.Acceptance
import DspIsa.Proofs.Enumeration

/-! What validation finds. Two instructions overlap when some words match both of them; validation
lists these pairs, then the operands that lie in two words, and nothing else makes it fail. -/
namespace DspIsa

namespace Instruction

variable {first second : Instruction}

/-- Two instructions of one width that fix a common bit, and two words that match both. -/
structure Clashes (first second : Instruction) : Prop where
  width : first.width = second.width
  common : first.fixedMask &&& second.fixedMask ≠ 0#32
  matched : ∃ one two, first.isMatch one two = true ∧ second.isMatch one two = true

/-- Instructions of one width read the same code out of two words. -/
theorem codeOf_congr (same : first.width = second.width) (one two : Word) :
    first.codeOf one two = second.codeOf one two := by
  rw [codeOf, codeOf, same]

/-- Where two instructions fix the same values on their common bits, the bits that either of them
sets are a code that both match. -/
theorem exists_isMatch (laid : first.WellLaid) (other : second.WellLaid)
    (same : first.width = second.width)
    (agree : first.fixedValue &&& (first.fixedMask &&& second.fixedMask) =
      second.fixedValue &&& (first.fixedMask &&& second.fixedMask)) :
    ∃ one two, first.isMatch one two = true ∧ second.isMatch one two = true := by
  have common (bit : Nat) (left : first.fixedMask.getLsbD bit = true)
      (right : second.fixedMask.getLsbD bit = true) :
      first.fixedValue.getLsbD bit = second.fixedValue.getLsbD bit :=
    Bits.and_eq_and_iff.mp agree bit (by simp [left, right])
  have fits : (first.fixedValue ||| second.fixedValue).toNat < 2 ^ first.width.bits := by
    rw [BitVec.toNat_or]
    exact Nat.or_lt_two_pow laid.value_lt (same ▸ other.value_lt)
  have code := codeOf_splitWords _ fits
  refine ⟨(first.splitWords (first.fixedValue ||| second.fixedValue)).1,
    (first.splitWords (first.fixedValue ||| second.fixedValue)).2,
    (isMatch_iff laid).mpr fun bit fixed => ?_, (isMatch_iff other).mpr fun bit fixed => ?_⟩
  · rw [code, BitVec.getLsbD_or]
    cases right : second.fixedMask.getLsbD bit with
    | false => rw [other.getLsbD_value_eq_false right, Bool.or_false]
    | true => rw [← common bit fixed right, Bool.or_self]
  · rw [← codeOf_congr same, code, BitVec.getLsbD_or]
    cases left : first.fixedMask.getLsbD bit with
    | false => rw [laid.getLsbD_value_eq_false left, Bool.false_or]
    | true => rw [common bit left fixed, Bool.or_self]

/-- Words that match two instructions show the same values on their common bits. -/
theorem agree_of_isMatch (laid : first.WellLaid) (other : second.WellLaid)
    (same : first.width = second.width) {one two : Word} (left : first.isMatch one two = true)
    (right : second.isMatch one two = true) :
    first.fixedValue &&& (first.fixedMask &&& second.fixedMask) =
      second.fixedValue &&& (first.fixedMask &&& second.fixedMask) := by
  refine Bits.and_eq_and_iff.mpr fun bit common => ?_
  rw [BitVec.getLsbD_and, Bool.and_eq_true] at common
  rw [← (isMatch_iff laid).mp left bit common.1, codeOf_congr same,
    (isMatch_iff other).mp right bit common.2]

end Instruction

namespace Overlap

/-- Comparing the fixed values on common bits finds the pairs that some words match both. -/
theorem between?_eq_some_iff {first second : Instruction} (laid : first.WellLaid)
    (other : second.WellLaid) {overlap : Overlap} :
    between? first second = some overlap ↔ first.Clashes second ∧
      overlap = ⟨first, second, first.fixedMask &&& second.fixedMask⟩ := by
  have agreement : (first.width = second.width ∧ first.fixedMask &&& second.fixedMask ≠ 0#32 ∧
      first.fixedValue &&& (first.fixedMask &&& second.fixedMask) =
        second.fixedValue &&& (first.fixedMask &&& second.fixedMask)) ↔ first.Clashes second := by
    constructor
    · rintro ⟨same, common, agree⟩
      exact ⟨same, common, Instruction.exists_isMatch laid other same agree⟩
    · rintro ⟨same, common, one, two, left, right⟩
      exact ⟨same, common, Instruction.agree_of_isMatch laid other same left right⟩
  unfold between?
  dsimp only
  split
  · rename_i holds
    rw [Option.some.injEq, eq_comm]
    exact ⟨fun found => ⟨agreement.mp holds, found⟩, And.right⟩
  · rename_i fails
    exact ⟨nofun, fun clash => absurd (agreement.mpr clash.1) fails⟩

end Overlap

/-- An overlap of two of the instructions, at their numbers. -/
structure Overlap.StandsAt (instructions : List Instruction) (place : Nat × Nat)
    (overlap : Overlap) : Prop where
  ordered : place.1 < place.2
  first : instructions[place.1]? = some overlap.first
  second : instructions[place.2]? = some overlap.second
  clashes : overlap.first.Clashes overlap.second
  common : overlap.commonMask = overlap.first.fixedMask &&& overlap.second.fixedMask

namespace Overlap

/-- The overlaps that are found are those of every two instructions, by their numbers. -/
theorem listed_find {instructions : List Instruction}
    (laid : ∀ instr ∈ instructions, instr.WellLaid) :
    Listed Earlier (StandsAt instructions) (find instructions) := by
  induction instructions with
  | nil => exact .nil fun place overlap stands => nomatch stands.first
  | cons first rest ih =>
    obtain ⟨head, later⟩ := List.forall_mem_cons.mp laid
    -- the pairs of the first instruction are a row; the others lie one place further in both
    have here := (Listed.filterMap (between? first) rest).mapPlace (· < ·) (· + 1)
      fun _ _ below => Nat.succ_lt_succ below
    have behind := (ih later).mapPlace Earlier (fun origin => (origin.1, origin.2 + 1))
      fun _ _ earlier => earlier.imp_right fun same => ⟨same.1, Nat.succ_lt_succ same.2⟩
    refine here.row behind (fun index overlap => ?_) fun number index overlap => ?_
    · constructor
      · intro stands
        obtain ⟨origin, rfl⟩ := Nat.exists_eq_succ_of_ne_zero (Nat.ne_of_gt stands.ordered)
        have same : first = overlap.first := by simpa using stands.first
        have second : rest[origin]? = some overlap.second := by simpa using stands.second
        refine ⟨origin, rfl, overlap.second, second, ?_⟩
        rw [between?_eq_some_iff head (later _ (List.mem_of_getElem? second)), same,
          ← stands.common]
        exact ⟨stands.clashes, rfl⟩
      · rintro ⟨origin, rfl, second, found, between⟩
        obtain ⟨clash, rfl⟩ := (between?_eq_some_iff head
          (later second (List.mem_of_getElem? found))).mp between
        exact ⟨Nat.succ_pos origin, rfl, by simpa using found, clash, rfl⟩
    · constructor
      · intro stands
        obtain ⟨origin, rfl⟩ := Nat.exists_eq_succ_of_ne_zero
          (Nat.ne_of_gt (Nat.zero_lt_of_lt stands.ordered))
        exact ⟨(number, origin), rfl, Nat.lt_of_succ_lt_succ stands.ordered,
          by simpa using stands.first, by simpa using stands.second, stands.clashes, stands.common⟩
      · rintro ⟨origin, moved, stands⟩
        obtain ⟨rfl, rfl⟩ := Prod.mk.inj moved
        exact ⟨Nat.succ_lt_succ stands.ordered, by simpa using stands.first,
          by simpa using stands.second, stands.clashes, stands.common⟩

end Overlap

/-- An operand of a two-word instruction with bits in both words, at the numbers of the two. -/
structure Operand.StraddlesAt (instructions : List Instruction) (place : Nat × Nat)
    (found : Instruction × Operand) : Prop where
  instruction : instructions[place.1]? = some found.1
  operand : found.1.operands[place.2]? = some found.2
  width : found.1.width = .bits32
  low : found.2.low < 16
  high : 16 ≤ found.2.high

/-- A validation error at the place of an instruction. -/
def Diagnostic.blaming (code message : String) (instr : Instruction) : Diagnostic :=
  ⟨.validation, .error, code, message, some instr.span⟩

/-- The error for an overlap, at the later of its instructions. -/
def Overlap.complaint (overlap : Overlap) : Diagnostic :=
  .blaming "validation.overlapping-encoding" overlap.message overlap.second

/-- The error for an operand with bits in both words of an instruction, at that instruction. -/
def Operand.complaint (operand : Operand) (instr : Instruction) : Diagnostic :=
  .blaming "validation.straddling-operand"
    (StraddlingOperand.message ⟨instr.name, operand.symbol, operand.low, operand.high⟩) instr

namespace Instruction

/-- The operands that lie in both words, each with its instruction. -/
def straddlers (instr : Instruction) : List (Instruction × Operand) :=
  instr.operands.filterMap fun operand =>
    if instr.width = .bits32 ∧ operand.low < 16 ∧ 16 ≤ operand.high then some (instr, operand)
    else none

theorem listed_straddlers (instructions : List Instruction) :
    Listed Earlier (Operand.StraddlesAt instructions) (instructions.flatMap straddlers) := by
  induction instructions with
  | nil => exact .nil fun place found stands => nomatch stands.instruction
  | cons head rest ih =>
    refine (Listed.filterMap _ head.operands).row ih (fun index found => ?_)
      fun number index found => ?_
    · constructor
      · intro stands
        have same : head = found.1 := by simpa using stands.instruction
        refine ⟨found.2, same ▸ stands.operand, ?_⟩
        rw [if_pos ⟨same ▸ stands.width, stands.low, stands.high⟩, same]
      · rintro ⟨operand, listed, chosen⟩
        obtain ⟨⟨width, low, high⟩, same⟩ := Option.ite_none_right_eq_some.mp chosen
        cases same
        exact ⟨rfl, listed, width, low, high⟩
    · constructor
      · intro stands
        exact ⟨by simpa using stands.instruction, stands.operand, stands.width, stands.low,
          stands.high⟩
      · intro stands
        exact ⟨by simpa using stands.instruction, stands.operand, stands.width, stands.low,
          stands.high⟩

theorem straddlers_ne_nil_iff {instr : Instruction} :
    instr.straddlers ≠ [] ↔ instr.width = .bits32 ∧
      ∃ operand ∈ instr.operands, operand.low < 16 ∧ 16 ≤ operand.high := by
  rw [straddlers, ne_eq, List.filterMap_eq_nil_iff]
  constructor
  · intro some
    push Not at some
    obtain ⟨operand, member, chosen⟩ := some
    obtain ⟨width, lies⟩ : instr.width = .bits32 ∧ operand.low < 16 ∧ 16 ≤ operand.high := by
      by_contra none
      exact chosen (if_neg none)
    exact ⟨width, operand, member, lies⟩
  · rintro ⟨width, operand, member, lies⟩ none
    have chosen := none operand member
    rw [if_pos ⟨width, lies⟩] at chosen
    cases chosen

/-- Checking the layout of an instruction reports its straddling operands. -/
theorem layoutReports_eq_map (instr : Instruction) :
    instr.layoutReports = instr.straddlers.map fun found => found.2.complaint found.1 := by
  have chosen (operand : Operand) :
      (if operand.low < 16 ∧ 16 ≤ operand.high then some (instr, operand) else none) =
        (Option.guard (fun operand => operand.low < 16 && 16 ≤ operand.high) operand).map
          fun operand => (instr, operand) := by
    by_cases lies : operand.low < 16 ∧ 16 ≤ operand.high <;> simp [Option.guard, lies]
  unfold layoutReports straddling straddlers
  split
  · rename_i width
    simp only [width, true_and, chosen]
    rw [← List.map_filterMap, List.filterMap_eq_filter, List.map_map, List.map_map]
    rfl
  · rename_i narrow
    simp [narrow]

end Instruction

namespace Validator

/-- A validator that was made and has then checked any number of documents. -/
inductive Used : Validator → Prop where
  | new : Used .new
  | after {validator : Validator} (used : Used validator) (doc : Document) :
    Used (validator.validate doc).2

/-- No report is left behind for the next document. -/
theorem Used.pending_eq_nil {validator : Validator} (used : validator.Used) :
    validator.pending = [] := by
  cases used with
  | new => rfl
  | after used doc =>
    unfold validate
    dsimp only
    split
    · rename_i clean
      exact List.isEmpty_iff.mp clean
    · rfl

/-- A validator with nothing pending reports the overlaps and then the straddling operands. -/
theorem validate_eq {validator : Validator} (idle : validator.pending = []) (doc : Document) :
    (validator.validate doc).1 =
      if Overlap.find doc.instructions = [] ∧
          doc.instructions.flatMap Instruction.straddlers = [] then .ok ()
      else .error (.diagnostics .validation
        ((Overlap.find doc.instructions).map Overlap.complaint ++
          (doc.instructions.flatMap Instruction.straddlers).map fun found =>
            found.2.complaint found.1)) := by
  have layout : doc.instructions.flatMap Instruction.layoutReports =
      (doc.instructions.flatMap Instruction.straddlers).map fun found =>
        found.2.complaint found.1 := by
    rw [List.map_flatMap]
    exact List.flatMap_congr fun instr _ => instr.layoutReports_eq_map
  unfold validate
  dsimp only
  rw [idle, List.nil_append, layout]
  simp only [List.isEmpty_iff, List.append_eq_nil_iff, List.map_eq_nil_iff]
  split
  · rfl
  · rfl

/-- Validation lists the overlaps and the straddling operands of a document that was read, and
fails exactly when there are any; extensions do not matter. -/
theorem validate_of_parse {path source : String} {doc : Document} {validator : Validator}
    (read : Spec.parse path source = .ok doc) (used : validator.Used) :
    Listed Earlier (Overlap.StandsAt doc.instructions) (Overlap.find doc.instructions) ∧
      ((∃ fault, (validator.validate doc).1 = .error fault) ↔
        Overlap.find doc.instructions ≠ [] ∨ ∃ instr ∈ doc.instructions, instr.width = .bits32 ∧
          ∃ operand ∈ instr.operands, operand.low < 16 ∧ 16 ≤ operand.high) ∧
      (∃ straddlers, Listed Earlier (Operand.StraddlesAt doc.instructions) straddlers ∧
        ∀ fault, (validator.validate doc).1 = .error fault → fault = .diagnostics .validation
          ((Overlap.find doc.instructions).map Overlap.complaint ++
            straddlers.map fun found => found.2.complaint found.1)) ∧
      ∀ other : Document, other.instructions = doc.instructions →
        (validator.validate other).1 = (validator.validate doc).1 := by
  have outcome := validate_eq used.pending_eq_nil
  have laid (instr : Instruction) (member : instr ∈ doc.instructions) : instr.WellLaid :=
    ((Spec.wellFormed_of_parse read).main instr member).1
  have some : doc.instructions.flatMap Instruction.straddlers ≠ [] ↔
      ∃ instr ∈ doc.instructions, instr.width = .bits32 ∧
        ∃ operand ∈ instr.operands, operand.low < 16 ∧ 16 ≤ operand.high := by
    rw [ne_eq, List.flatMap_eq_nil_iff]
    push Not
    simp only [Instruction.straddlers_ne_nil_iff]
  refine ⟨Overlap.listed_find laid, ?_,
    ⟨_, Instruction.listed_straddlers doc.instructions, fun fault failed => ?_⟩,
    fun other same => ?_⟩
  · rw [outcome, ← some, ← not_and_or]
    split
    · rename_i clean
      exact ⟨nofun, fun found => absurd clean found⟩
    · rename_i found
      exact ⟨fun _ => found, fun _ => ⟨_, rfl⟩⟩
  · rw [outcome] at failed
    split at failed
    · cases failed
    · exact (Except.error.inj failed).symm
  · rw [outcome, outcome, same]

/-- Two instructions with one encoding in common, one whose operand straddles, and an extension. -/
def clashing : String :=
  "ADD D * 0011 000d 0000 0000\nADDX * 0011 0000 0000 0000\n" ++
    "LONG I * 0100 0000 0000 iiii iiii iiii iiii iiii\n'HALT * xxxx xxxx 0001 0110\n"

def add : Instruction :=
  ⟨"ADD_D", "ADD", [⟨8, 8, 'd'⟩], 0xFEFF#32, 0x3000#32, .bits16,
    ⟨"clashing", ⟨1, 1⟩, ⟨1, 28⟩⟩⟩

def addExact : Instruction :=
  ⟨"ADDX", "ADDX", [], 0xFFFF#32, 0x3000#32, .bits16, ⟨"clashing", ⟨2, 1⟩, ⟨2, 27⟩⟩⟩

def long : Instruction :=
  ⟨"LONG_I", "LONG", [⟨0, 19, 'i'⟩], 0xFFF00000#32, 0x40000000#32, .bits32,
    ⟨"clashing", ⟨3, 1⟩, ⟨3, 49⟩⟩⟩

theorem validate_clashing :
    ∃ doc, Spec.parse "clashing" clashing = .ok doc ∧ Validator.new.Used ∧
      Listed Earlier (Overlap.StandsAt [add, addExact, long]) [⟨add, addExact, 0xFEFF#32⟩] ∧
      (∃ fault, (Validator.new.validate doc).1 = .error fault) ∧
      ∀ other : Document, other.instructions = [add, addExact, long] →
        (Validator.new.validate other).1 = (Validator.new.validate doc).1 := by
  obtain ⟨doc, read, instructions, -⟩ := Document.exists_eq_ok
    (by decide +kernel : ((Spec.parse "clashing" clashing).toOption.map fun doc =>
      (doc.instructions, doc.extensions)) = some ([add, addExact, long],
        [⟨"HALT", "HALT", [], 0xFF#32, 0x16#32, .bits8, ⟨"clashing", ⟨4, 1⟩, ⟨4, 28⟩⟩⟩]))
  obtain ⟨listed, fails, -, unchanged⟩ := validate_of_parse read .new
  have overlaps : Overlap.find doc.instructions = [⟨add, addExact, 0xFEFF#32⟩] := by
    rw [instructions]
    decide
  rw [overlaps, instructions] at listed
  refine ⟨doc, read, .new, listed, fails.mpr (.inl ?_), fun other same => ?_⟩
  · rw [overlaps]
    exact List.cons_ne_nil _ _
  · exact unchanged other (same.trans instructions.symm)

end Validator

end DspIsa
