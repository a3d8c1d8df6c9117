import DspIsa.Generated.Identifier
import DspIsa.Proofs.FieldNames

/-! Legal names. Letters, a number or a prefix make a legal name of every opcode and every symbol;
the reserved underscore is left to an opcode of one other character. -/
namespace DspIsa.Generated

/-- The characters of an identifier. -/
def isNameChar (c : Char) : Bool := c.isAlphanum || c == '_'

/-- A word that does not start with a digit. -/
structure IsName (name : String) : Prop where
  shown : name ≠ ""
  start : ∀ c ∈ name.toList.head?, c.isDigit = false
  chars : ∀ c ∈ name.toList, isNameChar c = true

/-- A name that a function, a type or a field may have. The lone underscore is reserved. -/
structure IsIdentifier (name : String) : Prop extends IsName name where
  named : name ≠ "_"

section Characters

theorem isNameChar_of_isDigit {c : Char} (digit : c.isDigit = true) : isNameChar c = true := by
  simp [isNameChar, Char.isAlphanum, digit]

theorem isNameChar_of_isAlphanum {c : Char} (plain : c.isAlphanum = true) :
    isNameChar c = true := by
  rw [isNameChar, plain]
  rfl

/-- What holds of the letters and digits among the first 128 code points holds of all. -/
theorem of_isAlphanum {p : Char → Prop}
    (codes : ∀ code < 128, (Char.ofNat code).isAlphanum = true → p (Char.ofNat code)) {c : Char}
    (plain : c.isAlphanum = true) : p c := by
  have ascii : c.toNat < 128 := by
    change (decide (65 ≤ c.val ∧ c.val ≤ 90) || (decide (97 ≤ c.val) && decide (c.val ≤ 122)) ||
      (decide (48 ≤ c.val) && decide (c.val ≤ 57))) = true at plain
    simp only [Bool.or_eq_true, Bool.and_eq_true, decide_eq_true_eq,
      UInt32.le_iff_toNat_le] at plain
    simp at plain
    omega
  have same := codes c.toNat ascii
  rw [Char.ofNat_toNat] at same
  exact same plain

/-- The capital form of a letter or digit is a letter or digit. -/
theorem isAlphanum_toUpper {c : Char} (plain : c.isAlphanum = true) :
    c.toUpper.isAlphanum = true :=
  of_isAlphanum (p := fun c => c.toUpper.isAlphanum = true) (by decide +kernel) plain

/-- The small form of a letter is a letter. -/
theorem isAlpha_toLower {c : Char} (letter : c.isAlpha = true) : c.toLower.isAlpha = true :=
  of_isAlphanum (p := fun c => c.isAlpha = true → c.toLower.isAlpha = true) (by decide +kernel)
    (by rw [Char.isAlphanum, letter]; rfl) letter

/-- A letter is neither a digit nor the underscore. -/
theorem isDigit_of_isAlpha {c : Char} (letter : c.isAlpha = true) : c.isDigit = false ∧ c ≠ '_' :=
  of_isAlphanum (p := fun c => c.isAlpha = true → c.isDigit = false ∧ c ≠ '_') (by decide +kernel)
    (by rw [Char.isAlphanum, letter]; rfl) letter

end Characters

theorem IsName.toList_ne_nil {name : String} (isName : IsName name) : name.toList ≠ [] :=
  fun empty => isName.shown (String.toList_inj.mp empty)

/-- What stands behind a name does not change how it starts. -/
theorem IsName.append {front back : String} (isName : IsName front)
    (chars : ∀ c ∈ back.toList, isNameChar c = true) : IsName (front ++ back) := by
  obtain ⟨first, others, text⟩ := List.exists_cons_of_ne_nil isName.toList_ne_nil
  refine ⟨fun empty => ?_, fun c head => isName.start c ?_, fun c member => ?_⟩
  · rw [← String.toList_inj, String.toList_append, text] at empty
    cases empty
  · rw [String.toList_append, text] at head
    rw [text]
    exact head
  · rw [String.toList_append, List.mem_append] at member
    rcases member with before | after
    · exact isName.chars c before
    · exact chars c after

theorem IsIdentifier.append {front back : String} (identifier : IsIdentifier front)
    (chars : ∀ c ∈ back.toList, isNameChar c = true) : IsIdentifier (front ++ back) := by
  refine ⟨identifier.toIsName.append chars, fun reserved => ?_⟩
  rw [← String.toList_inj, String.toList_append] at reserved
  rcases List.append_eq_singleton_iff.mp reserved with ⟨empty, -⟩ | ⟨whole, -⟩
  · exact identifier.toList_ne_nil empty
  · exact identifier.named (String.toList_inj.mp whole)

theorem isIdentifier_of_isAlpha {name : String} {first : Char} {rest : List Char}
    (text : name.toList = first :: rest) (letter : first.isAlpha = true)
    (chars : rest.all isNameChar = true) : IsIdentifier name := by
  obtain ⟨digit, underscore⟩ := isDigit_of_isAlpha letter
  refine ⟨⟨?_, fun c head => ?_, ?_⟩, ?_⟩
  · rintro rfl
    cases text
  · rw [text] at head
    cases head
    exact digit
  · rw [text]
    refine List.forall_mem_cons.mpr ⟨isNameChar_of_isAlphanum ?_, List.all_eq_true.mp chars⟩
    rw [Char.isAlphanum, letter]
    rfl
  · rintro rfl
    cases text
    exact underscore rfl

/-! ### Names with numbers -/

section Numbers

variable {base : String}

theorem numbered_ne_underscore (base : String) (number : Nat) : numbered base number ≠ "_" := by
  intro reserved
  rw [← String.toList_inj, toList_numbered] at reserved
  rcases List.append_eq_singleton_iff.mp reserved with ⟨-, mark⟩ | ⟨-, mark⟩
  · exact Nat.toDigits_ne_nil (List.cons.inj mark).2
  · cases mark

theorem isIdentifier_numbered (isName : IsName base) (number : Nat) :
    IsIdentifier (numbered base number) := by
  have text : numbered base number = base ++ String.ofList ('_' :: Nat.toDigits 10 number) := by
    rw [← String.toList_inj, toList_numbered, String.toList_append, String.toList_ofList]
  have digits : ∀ c ∈ Nat.toDigits 10 number, isNameChar c = true := fun c member =>
    isNameChar_of_isDigit (Nat.isDigit_of_mem_toDigits (by decide) (by decide) member)
  refine ⟨?_, numbered_ne_underscore base number⟩
  rw [text]
  refine isName.append ?_
  rw [String.toList_ofList]
  exact List.forall_mem_cons.mpr ⟨by decide, digits⟩

namespace TypeNames

/-- A name handed out is the one asked for, or that with a number. -/
theorem claim_fst (names : TypeNames) (base : String) :
    (names.claim base).1 = base ∨ ∃ number, (names.claim base).1 = numbered base number := by
  unfold claim
  split
  · exact .inl rfl
  · exact .inr ⟨_, rfl⟩

theorem isName_claim (isName : IsName base) (names : TypeNames) :
    IsName (names.claim base).1 := by
  rcases names.claim_fst base with same | ⟨number, marked⟩
  · rwa [same]
  · rw [marked]
    exact (isIdentifier_numbered isName number).toIsName

theorem eq_underscore_of_claim {names : TypeNames} (reserved : (names.claim base).1 = "_") :
    base = "_" := by
  rcases names.claim_fst base with same | ⟨number, marked⟩
  · rw [← same, reserved]
  · exact absurd (marked.symm.trans reserved) (numbered_ne_underscore base number)

theorem isIdentifier_claim (identifier : IsIdentifier base) (names : TypeNames) :
    IsIdentifier (names.claim base).1 :=
  ⟨isName_claim identifier.toIsName names, fun reserved =>
    identifier.named (eq_underscore_of_claim reserved)⟩

end TypeNames

end Numbers

/-! ### Names of fields -/

theorem isIdentifier_fieldIdent (symbol : Char) : IsIdentifier (fieldIdent symbol) := by
  unfold fieldIdent
  split
  · rename_i letter
    have text : symbol.toLower.toString.toList = [symbol.toLower] := by simp
    exact isIdentifier_of_isAlpha text (isAlpha_toLower letter) rfl
  · have mark : IsIdentifier "op_" := isIdentifier_of_isAlpha rfl (by decide) (by decide)
    refine mark.append ?_
    exact forall_mem_hex (p := (isNameChar · = true)) (by decide) 2 symbol.toNat

theorem isIdentifier_of_mem_fieldNames {instr : Instruction} {name : String}
    (member : name ∈ instr.fieldNames) : IsIdentifier name := by
  obtain ⟨base, listed, earlier, -, rfl⟩ := exists_repetition_of_mem member
  obtain ⟨operand, -, rfl⟩ := List.mem_map.mp listed
  have identifier := isIdentifier_fieldIdent operand.symbol
  cases earlier with
  | zero => exact identifier
  | succ earlier => exact isIdentifier_numbered identifier.toIsName (earlier + 1)

/-! ### Names of opcodes -/

theorem isName_typeIdent (name : String) : IsName (typeIdent name) := by
  have upper : ∀ c ∈ name.toList.map (fun c => if c.isAlphanum then c.toUpper else '_'),
      isNameChar c = true := by
    intro c member
    obtain ⟨d, -, rfl⟩ := List.mem_map.mp member
    split
    · rename_i plain
      exact isNameChar_of_isAlphanum (isAlphanum_toUpper plain)
    · decide
  have mark : IsIdentifier "OP_" := isIdentifier_of_isAlpha rfl (by decide) (by decide)
  unfold typeIdent
  dsimp only
  generalize name.toList.map (fun c => if c.isAlphanum then c.toUpper else '_') = chars at upper
  cases chars with
  | nil => exact mark.toIsName
  | cons first rest =>
    have each : ∀ c ∈ (String.ofList (first :: rest)).toList, isNameChar c = true := by
      rwa [String.toList_ofList]
    dsimp only
    split
    · exact mark.toIsName.append each
    · rename_i plain
      exact ⟨by simp [← String.toList_inj], by simpa using plain, each⟩

/-- The replacement for a character is the underscore if it is no letter or digit. -/
theorem ite_toUpper_eq_underscore {c : Char} :
    (if c.isAlphanum then c.toUpper else '_') = '_' ↔ c.isAlphanum = false := by
  cases plain : c.isAlphanum with
  | false => simp
  | true =>
    have upper := isAlphanum_toUpper plain
    refine iff_of_false (fun replaced => ?_) (Bool.true_eq_false ▸ id)
    rw [if_pos rfl] at replaced
    rw [replaced] at upper
    cases upper

/-- Only an opcode of one character gets the underscore: a mark is put in front of digits. -/
theorem typeIdent_eq_underscore_iff {name : String} :
    typeIdent name = "_" ↔ ∃ c, name.toList = [c] ∧ c.isAlphanum = false := by
  unfold typeIdent
  dsimp only
  cases name.toList with
  | nil => simp
  | cons first rest =>
    rw [List.map_cons]
    dsimp only
    generalize start : (if first.isAlphanum then first.toUpper else '_') = head
    have replaced : head = '_' ↔ first.isAlphanum = false := by
      rw [← start, ite_toUpper_eq_underscore]
    split
    · rename_i digit
      constructor
      · intro reserved
        rw [← String.toList_inj, String.toList_append] at reserved
        cases reserved
      · rintro ⟨c, same, other⟩
        cases same
        rw [replaced.mpr other] at digit
        cases digit
    · rw [← String.toList_inj, String.toList_ofList]
      constructor
      · intro reserved
        obtain ⟨underscore, alone⟩ := List.cons.inj reserved
        cases List.map_eq_nil_iff.mp alone
        exact ⟨first, rfl, replaced.mp underscore⟩
      · rintro ⟨c, same, other⟩
        cases same
        rw [replaced.mpr other]
        rfl

/-- The prefix of extensions makes an identifier of every opcode. -/
theorem isIdentifier_extension (name : String) : IsIdentifier ("EXT_" ++ typeIdent name) := by
  have mark : IsIdentifier "EXT_" := isIdentifier_of_isAlpha rfl (by decide) (by decide)
  exact mark.append (isName_typeIdent name).chars

end DspIsa.Generated
