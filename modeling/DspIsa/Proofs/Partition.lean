import DspIsa.Proofs.LineGrammar
import DspIsa.Proofs.Reencoding

/-! How a pattern divides the bits of its width. Each bit is fixed or belongs to one operand, an
operand reaches as far as its symbol does, and the characters of the pattern can be read off again.
What cannot be read has a wrong width, or else a wrong digit. -/
namespace DspIsa

/-- The widths that a pattern of the kind may have. -/
def PatternKind.widths : PatternKind → List Nat
  | .main => [16, 32]
  | .extension => [8]

theorem PatternKind.width?_eq_none_iff {kind : PatternKind} {size : Nat} :
    kind.width? size = none ↔ size ∉ kind.widths := by
  cases kind <;> simp only [widths, width?] <;> split <;> simp_all

namespace Pattern

/-- The characters of a text that stand for bits. -/
def bitChars (text : String) : List Char := text.toList.filter fun c => !Text.isBlank c

/-- A digit that no bit may have. -/
def IsWrongDigit (c : Char) : Prop := '2' ≤ c ∧ c ≤ '9'

instance (c : Char) : Decidable (IsWrongDigit c) := inferInstanceAs (Decidable (_ ∧ _))

/-- The first wrong digit among some characters, with its place counted from one. -/
def FirstWrong (chars : List Char) (found : Char) (place : Nat) : Prop :=
  IsWrongDigit found ∧ ∃ before behind, chars = before ++ found :: behind ∧
    place = before.length + 1 ∧ ∀ c ∈ before, ¬ IsWrongDigit c

theorem find?_zipIdx_eq_some_iff {p : Char → Bool} {chars : List Char} {start : Nat}
    {found : Char} {place : Nat} :
    ((chars.zipIdx start).find? fun entry => p entry.1) = some (found, place) ↔
      p found = true ∧ ∃ before behind, chars = before ++ found :: behind ∧
        place = start + before.length ∧ ∀ c ∈ before, p c = false := by
  induction chars generalizing start with
  | nil => simp
  | cons c rest ih =>
    rw [List.zipIdx_cons, List.find?_cons]
    cases chosen : p c with
    | true =>
      constructor
      · intro same
        cases Option.some.inj same
        exact ⟨chosen, [], rest, rfl, rfl, nofun⟩
      · rintro ⟨-, before, behind, parts, rfl, free⟩
        cases before with
        | nil =>
          cases parts
          rfl
        | cons first more =>
          cases parts
          rw [free c List.mem_cons_self] at chosen
          cases chosen
    | false =>
      rw [ih]
      refine and_congr_right fun wanted => ?_
      constructor
      · rintro ⟨before, behind, rfl, rfl, free⟩
        refine ⟨c :: before, behind, rfl, ?_, List.forall_mem_cons.mpr ⟨chosen, free⟩⟩
        rw [List.length_cons]
        omega
      · rintro ⟨before, behind, parts, rfl, free⟩
        cases before with
        | nil =>
          cases parts
          rw [wanted] at chosen
          cases chosen
        | cons first more =>
          cases parts
          refine ⟨more, behind, rfl, ?_, (List.forall_mem_cons.mp free).2⟩
          rw [List.length_cons]
          omega

theorem find?_badDigit_eq_some_iff {chars : List Char} {found : Char} {place : Nat} :
    ((chars.zipIdx 1).find? fun entry => isBadDigit entry.1) = some (found, place) ↔
      FirstWrong chars found place := by
  simp only [find?_zipIdx_eq_some_iff, FirstWrong, IsWrongDigit, ← Spec.TextLine.isBadDigit_iff,
    Bool.not_eq_true, Nat.add_comm 1]

theorem find?_badDigit_eq_none_iff {chars : List Char} :
    ((chars.zipIdx 1).find? fun entry => isBadDigit entry.1) = none ↔
      ∀ c ∈ chars, ¬ IsWrongDigit c := by
  simp only [List.find?_eq_none, IsWrongDigit, ← Spec.TextLine.isBadDigit_iff]
  rw [← List.forall_mem_map (f := Prod.fst) (P := fun c => ¬ isBadDigit c = true),
    List.zipIdx_map_fst]

/-- An operand ends where its symbol does. -/
theorem next_of_mem_runs (low : Nat) (chars : List Char) :
    ∀ operand ∈ runs low chars, chars[operand.high + 1 - low]? ≠ some operand.symbol := by
  fun_induction runs low chars with
  | case1 low => simp
  | case2 low c rest digit ih =>
    intro operand member
    have shown := shown_of_mem_runs _ _ operand member
    have above := shown.above
    have ordered := shown.ordered
    have place : operand.high + 1 - low = operand.high + 1 - (low + 1) + 1 := by omega
    rw [place, List.getElem?_cons_succ]
    exact ih operand member
  | case3 low c rest symbol more ih =>
    intro operand member
    rw [cons_eq_replicate_append]
    rcases List.mem_cons.mp member with rfl | later
    · have place : low + more + 1 - low = more + 1 := by omega
      have stops := List.head?_dropWhile_not (· == c) rest
      rw [place, List.getElem?_append_right (by simp [more]), List.length_replicate, Nat.sub_self,
        ← List.head?_eq_getElem?]
      intro same
      simp [same] at stops
    · have shown := shown_of_mem_runs _ _ operand later
      have above := shown.above
      have ordered := shown.ordered
      have place : operand.high + 1 - low - (more + 1) = operand.high + 1 - (low + more + 1) := by
        omega
      rw [List.getElem?_append_right (by rw [List.length_replicate]; omega), List.length_replicate,
        place]
      exact ih operand later

end Pattern

namespace BitPattern

open Pattern (bitChars IsWrongDigit FirstWrong)

/-- The character that a pattern shows at a bit: its digit where the bit is fixed, and else the
symbol of the operand that the bit belongs to. -/
def charAt? (pattern : BitPattern) (bit : Nat) : Option Char :=
  if pattern.fixedMask.getLsbD bit then some (if pattern.fixedValue.getLsbD bit then '1' else '0')
  else
    (pattern.operands.find? fun operand =>
      decide (operand.low ≤ bit) && decide (bit ≤ operand.high)).map (·.symbol)

/-- What a pattern shows, from the highest bit down. -/
def shown (pattern : BitPattern) : List (Option Char) :=
  (List.range pattern.width.bits).reverse.map pattern.charAt?

/-- Between two operands with one symbol there is a fixed bit, or one of an operand with another
symbol. -/
def RunsApart (pattern : BitPattern) : Prop :=
  ∀ first ∈ pattern.operands, ∀ second ∈ pattern.operands, first.high < second.low →
    first.symbol = second.symbol → ∃ bit, first.high < bit ∧ bit < second.low ∧
      (pattern.fixedMask.getLsbD bit = true ∨
        ∃ other ∈ pattern.operands, other.Covers bit ∧ other.symbol ≠ first.symbol)

variable {kind : PatternKind} {text : String} {pattern : BitPattern}

/-- A pattern that is read gives each bit the character that stands for it. -/
theorem charAt?_of_scan (read : scan kind text = .ok pattern) {bit : Nat}
    (inside : bit < pattern.width.bits) :
    pattern.charAt? bit = (bitChars text).reverse[bit]? := by
  obtain ⟨chars, kept, allowed, mask, value, operands⟩ := scan_eq_ok read
  have whole : bitChars text = chars := kept.symm
  have narrow : bit < 32 := Nat.lt_of_lt_of_le inside pattern.width.bits_le
  have covered := covered_of_scan read bit inside
  rw [PatternKind.bits_of_width? allowed, ← List.length_reverse] at inside
  obtain ⟨c, found⟩ : ∃ c, chars.reverse[bit]? = some c :=
    ⟨_, List.getElem?_eq_getElem inside⟩
  have maskBit : pattern.fixedMask.getLsbD bit = Pattern.isFixed c := by
    rw [mask, ← chars.reverse_reverse, Pattern.getLsbD_bitsWhere, found]
    simp [narrow]
  have valueBit : pattern.fixedValue.getLsbD bit = (c == '1') := by
    rw [value, ← chars.reverse_reverse, Pattern.getLsbD_bitsWhere, found]
    simp [narrow]
  rw [whole, found, charAt?, maskBit, valueBit]
  cases fixed : Pattern.isFixed c with
  | true =>
    rw [Pattern.isFixed, Bool.or_eq_true, beq_iff_eq, beq_iff_eq] at fixed
    rcases fixed with rfl | rfl <;> rfl
  | false =>
    rw [maskBit, fixed] at covered
    obtain ⟨operand, member, lower, upper⟩ := covered.resolve_left (by decide)
    obtain ⟨owner, first⟩ : ∃ owner, pattern.operands.find? (fun operand =>
        decide (operand.low ≤ bit) && decide (bit ≤ operand.high)) = some owner := by
      rw [← Option.isSome_iff_exists, List.find?_isSome]
      exact ⟨operand, member, by simp [lower, upper]⟩
    have covers := List.find?_some first
    rw [Bool.and_eq_true, decide_eq_true_eq, decide_eq_true_eq] at covers
    have listed := List.mem_of_find?_eq_some first
    rw [operands] at listed
    have symbol := (Pattern.shown_of_mem_runs 0 _ owner listed).symbols bit covers.1 covers.2
    rw [Nat.sub_zero, found] at symbol
    rw [if_neg (by decide), first, Option.map_some, symbol]

theorem shown_of_scan (read : scan kind text = .ok pattern) :
    pattern.shown = (bitChars text).map some := by
  obtain ⟨chars, kept, allowed, -⟩ := scan_eq_ok read
  have whole : bitChars text = chars := kept.symm
  have size : pattern.width.bits = (bitChars text).length := by
    rw [whole, PatternKind.bits_of_width? allowed]
  apply List.ext_getElem?
  intro place
  by_cases inside : place < (bitChars text).length
  · have bit : (bitChars text).length - 1 - place < pattern.width.bits := by omega
    rw [shown, List.getElem?_map, List.getElem?_reverse (by simpa [size] using inside),
      List.length_range, size, List.getElem?_range (by omega), Option.map_some,
      charAt?_of_scan read bit, List.getElem?_reverse (by omega), List.getElem?_map,
      List.getElem?_eq_getElem (by omega)]
    have back : (bitChars text).length - 1 - ((bitChars text).length - 1 - place) = place := by
      omega
    simp only [back, List.getElem?_eq_getElem inside, Option.map_some]
  · rw [List.getElem?_eq_none (by simpa [shown, size] using inside),
      List.getElem?_eq_none (by simpa using inside)]

theorem runsApart_of_scan (read : scan kind text = .ok pattern) : pattern.RunsApart := by
  obtain ⟨chars, -, -, -, -, operands⟩ := scan_eq_ok read
  have laid := wellLaid_of_scan read
  intro first member second listed before same
  have runs := member
  have others := listed
  rw [operands] at runs others
  have next := Pattern.next_of_mem_runs 0 _ first runs
  have start := (Pattern.shown_of_mem_runs 0 _ second others).symbols second.low (Nat.le_refl _)
    (laid.ordered second listed).1
  rw [Nat.sub_zero] at next start
  -- the character behind the first operand is another one, so the second begins later
  have apart : first.high + 1 ≠ second.low := by
    intro touching
    rw [touching, start, same] at next
    exact next rfl
  have inside : first.high + 1 < pattern.width.bits := by
    have bounds := laid.ordered second listed
    omega
  refine ⟨first.high + 1, Nat.lt_succ_self _, by omega, ?_⟩
  refine (covered_of_scan read _ inside).imp_right ?_
  rintro ⟨other, owner, covers⟩
  refine ⟨other, owner, covers, fun alike => next ?_⟩
  rw [operands] at owner
  have symbol := (Pattern.shown_of_mem_runs 0 _ other owner).symbols _ covers.1 covers.2
  rw [Nat.sub_zero] at symbol
  rw [symbol, alike]

/-- A pattern of a wrong width is refused for that, whatever else is wrong with it. -/
theorem scan_eq_width_iff {size : Nat} {other : PatternKind} :
    scan kind text = .error (.width size other) ↔
      (bitChars text).length ∉ kind.widths ∧ size = (bitChars text).length ∧ other = kind := by
  rw [← PatternKind.width?_eq_none_iff]
  unfold scan bitChars
  dsimp only
  split
  · rename_i refused
    simp [refused, eq_comm]
  · rename_i width allowed
    rw [allowed]
    split <;> simp

theorem scan_eq_digit_iff {found : Char} {place : Nat} :
    scan kind text = .error (.digit found place) ↔
      (bitChars text).length ∈ kind.widths ∧ FirstWrong (bitChars text) found place := by
  rw [← Decidable.not_not (p := _ ∈ kind.widths), ← PatternKind.width?_eq_none_iff,
    ← Pattern.find?_badDigit_eq_some_iff]
  unfold scan bitChars
  dsimp only
  split
  · rename_i refused
    simp [refused]
  · rename_i width allowed
    rw [allowed]
    split
    · rename_i first
      simp [first]
    · rename_i good
      simp [good]

theorem exists_scan_eq_ok_iff :
    (∃ pattern, scan kind text = .ok pattern) ↔
      (bitChars text).length ∈ kind.widths ∧ ∀ c ∈ bitChars text, ¬ IsWrongDigit c := by
  rw [← Decidable.not_not (p := _ ∈ kind.widths), ← PatternKind.width?_eq_none_iff,
    ← Pattern.find?_badDigit_eq_none_iff]
  unfold scan bitChars
  dsimp only
  split
  · rename_i refused
    simp [refused]
  · rename_i width allowed
    rw [allowed]
    split
    · rename_i first
      simp [first]
    · rename_i good
      simp [good]

/-- A text is refused for its width, or else for its first wrong digit, or else read. What is read
divides the bits of the width among fixed bits and ascending operands, keeps runs of one symbol in
one operand, and shows the characters of the text again. -/
theorem scan_divides (kind : PatternKind) (text : String) :
    (∀ size other, scan kind text = .error (.width size other) ↔
      (bitChars text).length ∉ kind.widths ∧ size = (bitChars text).length ∧ other = kind) ∧
    (∀ found place, scan kind text = .error (.digit found place) ↔
      (bitChars text).length ∈ kind.widths ∧ FirstWrong (bitChars text) found place) ∧
    ((∃ pattern, scan kind text = .ok pattern) ↔
      (bitChars text).length ∈ kind.widths ∧ ∀ c ∈ bitChars text, ¬ IsWrongDigit c) ∧
    ∀ pattern, scan kind text = .ok pattern →
      pattern.width.bits = (bitChars text).length ∧
      WellLaid pattern.width pattern.fixedMask pattern.fixedValue pattern.operands ∧
      Covered pattern.width pattern.fixedMask pattern.operands ∧
      pattern.RunsApart ∧
      pattern.shown = (bitChars text).map some := by
  refine ⟨fun size other => scan_eq_width_iff, fun found place => scan_eq_digit_iff,
    exists_scan_eq_ok_iff, fun pattern read => ?_⟩
  obtain ⟨chars, rfl, allowed, -⟩ := scan_eq_ok read
  exact ⟨PatternKind.bits_of_width? allowed, wellLaid_of_scan read, covered_of_scan read,
    runsApart_of_scan read, shown_of_scan read⟩

/-- Symbols beside symbols and digits, one of them on both sides of another. -/
theorem scan_divides_crowded :
    scan .extension "ssd s1 0dd" =
        .ok ⟨.bits8, 0x0C#32, 0x08#32, [⟨0, 1, 'd'⟩, ⟨4, 4, 's'⟩, ⟨5, 5, 'd'⟩, ⟨6, 7, 's'⟩]⟩ ∧
      RunsApart
        ⟨.bits8, 0x0C#32, 0x08#32, [⟨0, 1, 'd'⟩, ⟨4, 4, 's'⟩, ⟨5, 5, 'd'⟩, ⟨6, 7, 's'⟩]⟩ ∧
      shown ⟨.bits8, 0x0C#32, 0x08#32, [⟨0, 1, 'd'⟩, ⟨4, 4, 's'⟩, ⟨5, 5, 'd'⟩, ⟨6, 7, 's'⟩]⟩ =
        "ssds10dd".toList.map some ∧
      scan .main "ssd s1 0dd" = .error (.width 8 .main) ∧
      scan .extension "sd7 s1 9dd" = .error (.digit '7' 3) := by
  have read : scan .extension "ssd s1 0dd" =
      .ok ⟨.bits8, 0x0C#32, 0x08#32, [⟨0, 1, 'd'⟩, ⟨4, 4, 's'⟩, ⟨5, 5, 'd'⟩, ⟨6, 7, 's'⟩]⟩ := by
    decide +kernel
  obtain ⟨-, -, -, apart, written⟩ := (scan_divides .extension "ssd s1 0dd").2.2.2 _ read
  have wide := (scan_divides .main "ssd s1 0dd").1 8 .main
  have wrong := (scan_divides .extension "sd7 s1 9dd").2.1 '7' 3
  refine ⟨read, apart, written, wide.mpr (by decide), wrong.mpr ⟨by decide, ?_⟩⟩
  refine ⟨by decide, ['s', 'd'], ['s', '1', '9', 'd', 'd'], by decide, by decide, ?_⟩
  exact List.forall_mem_cons.mpr ⟨by decide, List.forall_mem_singleton.mpr (by decide)⟩

/-- Another operand between them is enough to set two operands with one symbol apart. -/
theorem exists_same_symbol_unfixed :
    ∃ pattern, scan .extension "0000 0sds" = .ok pattern ∧
      ∃ first ∈ pattern.operands, ∃ second ∈ pattern.operands,
        first.high < second.low ∧ first.symbol = second.symbol ∧
        ∀ bit, first.high < bit → bit < second.low → pattern.fixedMask.getLsbD bit = false := by
  have read : scan .extension "0000 0sds" =
      .ok ⟨.bits8, 0xF8#32, 0x00#32, [⟨0, 0, 's'⟩, ⟨1, 1, 'd'⟩, ⟨2, 2, 's'⟩]⟩ := by
    decide +kernel
  refine ⟨_, read, ⟨0, 0, 's'⟩, by simp, ⟨2, 2, 's'⟩, by simp, by decide, rfl, ?_⟩
  intro bit lower upper
  obtain rfl : bit = 1 := Nat.le_antisymm (Nat.le_of_lt_succ upper) lower
  decide

end BitPattern

end DspIsa
