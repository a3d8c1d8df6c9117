import DspIsa.Instruction

/-! Field names. The base of a name has no number behind it, so a base and the number of its
repetition can be read off a name, and no two fields of an instruction have one name. -/
namespace DspIsa

theorem toList_numbered (base : String) (number : Nat) :
    (numbered base number).toList = base.toList ++ '_' :: Nat.toDigits 10 number := by
  simp [numbered, String.toList_append, ToString.toString, Nat.toList_repr]

theorem toDigits_injective : Function.Injective (Nat.toDigits 10) :=
  Function.LeftInverse.injective (g := fun digits => Nat.ofDigitChars 10 digits 0) fun _ =>
    Nat.ofDigitChars_ten_toDigits

theorem numbered_injective (base : String) : Function.Injective (numbered base) := by
  intro first second same
  have chars := congrArg String.toList same
  rw [toList_numbered, toList_numbered] at chars
  exact toDigits_injective (List.cons.inj (List.append_cancel_left chars)).2

/-- What stands behind the base of a name. -/
def numberMark : Nat → List Char
  | 0 => []
  | earlier + 1 => '_' :: Nat.toDigits 10 (earlier + 1)

theorem toList_repetition (base : String) (earlier : Nat) :
    (repetition base earlier).toList = base.toList ++ numberMark earlier := by
  cases earlier with
  | zero => simp [repetition, numberMark]
  | succ earlier => exact toList_numbered base (earlier + 1)

theorem numberMark_injective : Function.Injective numberMark := by
  intro first second same
  cases first with
  | zero =>
    cases second with
    | zero => rfl
    | succ second => simp [numberMark] at same
  | succ first =>
    cases second with
    | zero => simp [numberMark] at same
    | succ second =>
      exact toDigits_injective (List.cons.inj same).2

theorem forall_mem_toDigits {p : Char → Prop} (each : ∀ digit < 16, p (Nat.digitChar digit))
    (value : Nat) : ∀ c ∈ Nat.toDigits 16 value, p c := by
  induction value using Nat.strongRecOn with
  | ind value ih =>
    intro c member
    by_cases small : value < 16
    · rw [Nat.toDigits_of_lt_base small, List.mem_singleton] at member
      rw [member]
      exact each value small
    · rw [Nat.toDigits_of_base_le (by decide) (Nat.le_of_not_lt small), List.mem_append,
        List.mem_singleton] at member
      rcases member with before | rfl
      · exact ih (value / 16) (by omega) c before
      · exact each (value % 16) (Nat.mod_lt _ (by decide))

theorem forall_mem_hex {p : Char → Prop} (each : ∀ digit < 16, p (Nat.digitChar digit))
    (width value : Nat) : ∀ c ∈ (Text.hex width value).toList, p c := by
  intro c member
  rw [Text.hex, String.toList_ofList, List.leftpad, List.mem_append] at member
  rcases member with padding | digit
  · rw [List.eq_of_mem_replicate padding]
    exact each 0 (by decide)
  · exact forall_mem_toDigits each value c digit

theorem underscore_not_mem_toDigits (value : Nat) : '_' ∉ Nat.toDigits 16 value := fun member =>
  forall_mem_toDigits (p := (· ≠ '_')) (by decide) value '_' member rfl

/-- The characters of a base: one letter, or a code point behind its mark. -/
inductive IsBase : List Char → Prop where
  | letter (c : Char) : IsBase [c]
  | codePoint (digits : List Char) (plain : '_' ∉ digits) : IsBase ('o' :: 'p' :: '_' :: digits)

theorem isBase_fieldIdent (symbol : Char) : IsBase (fieldIdent symbol).toList := by
  unfold fieldIdent
  split
  · have single : symbol.toLower.toString.toList = [symbol.toLower] := by simp
    rw [single]
    exact .letter _
  · have marked : ("op_" ++ Text.hex 2 symbol.toNat).toList =
        'o' :: 'p' :: '_' :: (Nat.toDigits 16 symbol.toNat).leftpad 2 '0' := by
      simp [Text.hex, String.toList_append]
    rw [marked]
    refine .codePoint _ ?_
    simp [List.leftpad, underscore_not_mem_toDigits]

theorem takeWhile_append_numberMark {digits : List Char} (plain : '_' ∉ digits) (earlier : Nat) :
    (digits ++ numberMark earlier).takeWhile (· != '_') = digits := by
  have kept : ∀ c ∈ digits, (c != '_') = true := by
    intro c member
    refine bne_iff_ne.mpr ?_
    rintro rfl
    exact plain member
  rw [List.takeWhile_append_of_pos kept]
  cases earlier <;> simp [numberMark]

/-- A base and the mark behind it do not run into one another. -/
theorem IsBase.append_numberMark_inj {base other : List Char} (left : IsBase base)
    (right : IsBase other) {earlier later : Nat}
    (same : base ++ numberMark earlier = other ++ numberMark later) :
    base = other ∧ earlier = later := by
  have cancel {stem : List Char} (rest : stem ++ numberMark earlier = stem ++ numberMark later) :
      earlier = later := numberMark_injective (List.append_cancel_left rest)
  cases left with
  | letter c =>
    cases right with
    | letter d =>
      have head := (List.cons.inj same).1
      subst head
      exact ⟨rfl, cancel same⟩
    | codePoint digits plain =>
      have tail := (List.cons.inj same).2
      cases earlier <;> simp [numberMark] at tail
  | codePoint digits plain =>
    cases right with
    | letter d =>
      have tail := (List.cons.inj same).2
      cases later <;> simp [numberMark] at tail
    | codePoint others clean =>
      have behind : digits ++ numberMark earlier = others ++ numberMark later := by
        simpa using same
      have equal : digits = others := by
        rw [← takeWhile_append_numberMark plain earlier, behind,
          takeWhile_append_numberMark clean]
      subst equal
      exact ⟨rfl, cancel behind⟩

theorem repetition_fieldIdent_inj {symbol other : Char} {earlier later : Nat}
    (same : repetition (fieldIdent symbol) earlier = repetition (fieldIdent other) later) :
    fieldIdent symbol = fieldIdent other ∧ earlier = later := by
  have chars := congrArg String.toList same
  rw [toList_repetition, toList_repetition] at chars
  obtain ⟨bases, marks⟩ :=
    (isBase_fieldIdent symbol).append_numberMark_inj (isBase_fieldIdent other) chars
  exact ⟨String.toList_inj.mp bases, marks⟩

@[simp] theorem length_numberRepeats (seen bases : List String) :
    (numberRepeats seen bases).length = bases.length := by
  induction bases generalizing seen with
  | nil => rfl
  | cons base rest ih => rw [numberRepeats, List.length_cons, List.length_cons, ih]

/-- A name that is given out carries at least the number of bases seen before. -/
theorem exists_repetition_of_mem {seen bases : List String} {name : String}
    (member : name ∈ numberRepeats seen bases) :
    ∃ base ∈ bases, ∃ earlier, seen.count base ≤ earlier ∧ name = repetition base earlier := by
  induction bases generalizing seen with
  | nil => simp [numberRepeats] at member
  | cons base rest ih =>
    rw [numberRepeats] at member
    rcases List.mem_cons.mp member with rfl | later
    · exact ⟨base, List.mem_cons_self, seen.count base, Nat.le_refl _, rfl⟩
    · obtain ⟨other, listed, earlier, enough, rfl⟩ := ih later
      have counted : seen.count other ≤ (base :: seen).count other := List.count_le_count_cons
      exact ⟨other, List.mem_cons_of_mem _ listed, earlier, Nat.le_trans counted enough, rfl⟩

theorem nodup_numberRepeats (symbols : List Char) (seen : List String) :
    (numberRepeats seen (symbols.map fieldIdent)).Nodup := by
  induction symbols generalizing seen with
  | nil => exact List.nodup_nil
  | cons symbol rest ih =>
    rw [List.map_cons, numberRepeats, List.nodup_cons]
    refine ⟨fun repeated => ?_, ih _⟩
    obtain ⟨base, listed, earlier, enough, same⟩ := exists_repetition_of_mem repeated
    obtain ⟨other, -, rfl⟩ := List.mem_map.mp listed
    obtain ⟨bases, numbers⟩ := repetition_fieldIdent_inj same
    rw [← bases, List.count_cons_self] at enough
    omega

namespace Instruction

theorem nodup_fieldNames (instr : Instruction) : instr.fieldNames.Nodup := by
  have names := nodup_numberRepeats (instr.operands.map (·.symbol)) []
  rwa [List.map_map] at names

theorem length_fieldNames (instr : Instruction) :
    instr.fieldNames.length = instr.operands.length := by
  simp [fieldNames]

end Instruction

end DspIsa
