import DspIsa.Proofs.Disassembly

/-! A listing as a sweep. A cursor moves over the words of an image, by as many words as the
instruction in front of it has, until it stands at the end or the last instruction is cut off. The
lines partition what the cursor has passed. -/
namespace DspIsa

namespace ByteOrder

/-- The words of an image are its pairs of bytes; a stray last byte is in none of them. -/
theorem words_eq (order : ByteOrder) (image : List UInt8) :
    order.words image = (List.range (image.length / 2)).map fun k =>
      order.decode (image.getD (2 * k) 0) (image.getD (2 * k + 1) 0) := by
  fun_induction ByteOrder.words order image with
  | case1 first second rest ih =>
    have count : (first :: second :: rest).length / 2 = rest.length / 2 + 1 := by
      rw [List.length_cons, List.length_cons]
      omega
    rw [count, List.range_succ_eq_map, List.map_cons, List.map_map, ih]
    rfl
  | case2 image short =>
    match image, short with
    | [], _ => rfl
    | [stray], _ => simp
    | first :: second :: rest, short => exact absurd rfl (short first second rest)

end ByteOrder

/-- What can go wrong in a sweep: it asks for words that the image does not have, or it is not done
when its turns are used up. -/
inductive SweepFault where
  | outside (start count : Nat)
  | unfinished
  deriving DecidableEq, Repr

/-- The given number of words from a place on. -/
def slice (words : List Word) (start count : Nat) : Except SweepFault (List Word) :=
  if start + count ≤ words.length then .ok ((words.drop start).take count)
  else .error (.outside start count)

theorem Operation.wordCount_pos (op : Operation) : 1 ≤ op.wordCount := by
  rw [wordCount]
  split <;> omega

theorem Operation.wordCount_le (op : Operation) : op.wordCount ≤ 2 := by
  rw [wordCount]
  split <;> omega

/-- The operation is a main instruction of two words. -/
def Operation.IsDouble (doc : Document) (op : Operation) : Prop :=
  ∃ instr ∈ doc.instructions,
    op.instruction? = some instr ∧ op.isFallback = false ∧ instr.width = .bits32

/-- The line of an operation: its words, one or two, and what it shows of them. -/
structure ListingLine.Shows (doc : Document) (decoded : Decoded) (line : ListingLine) : Prop where
  size : line.words.length = 1 ∨ line.words.length = 2
  double : line.words.length = 2 ↔ decoded.main.IsDouble doc
  isFallback : line.isFallback = decoded.main.isFallback
  single : line.isFallback = true → line.words.length = 1
  text : line.text = decoded.render

/-- All words that the lines of a listing show, one after the other. -/
def Listing.words (listing : Listing) : List Word := listing.lines.flatMap (·.words)

theorem Listing.words_cons (line : ListingLine) (listing : Listing) :
    (listing.cons line).words = line.words ++ listing.words := List.flatMap_cons

namespace Decoder

/-- What a word decodes to in front of the words behind it. -/
def decodeBefore (decoder : Decoder) (first : Word) (behind : List Word) : Decoded :=
  decoder.decode first (behind.headD 0#16)

/-- The number of words of the instruction that a word starts. -/
def countBefore (decoder : Decoder) (first : Word) (behind : List Word) : Nat :=
  (decoder.decodeBefore first behind).main.wordCount

/-- The line of the instruction that a word starts, if its words are all there. -/
def lineBefore (decoder : Decoder) (address : Address) (first : Word) (behind : List Word) :
    ListingLine where
  address
  words := (first :: behind).take (decoder.countBefore first behind)
  text := (decoder.decodeBefore first behind).render
  isFallback := (decoder.decodeBefore first behind).main.isFallback

/-- The listing of the words from the cursor on, made in at most the given number of turns. -/
def sweep (decoder : Decoder) (base : Address) (words : List Word) :
    Nat → Nat → Except SweepFault Listing
  | 0, _ => .error .unfinished
  | turns + 1, cursor =>
    match words[cursor]? with
    | none => .ok ⟨[], none⟩
    | some first =>
      let address := base + BitVec.ofNat 64 cursor
      let second := words[cursor + 1]?
      let decoded := decoder.decode first (second.getD 0#16)
      let count := decoded.main.wordCount
      if count = 2 ∧ second = none then .ok ⟨[], some ⟨address, decoded.main.name⟩⟩
      else do
        let taken ← slice words cursor count
        let later ← decoder.sweep base words turns (cursor + count)
        return later.cons ⟨address, taken, decoded.render, decoded.main.isFallback⟩

/-- Decoding the first list, one instruction after the other, comes to the second. -/
inductive Leaves (decoder : Decoder) : List Word → List Word → Prop where
  | here (words : List Word) : Leaves decoder words words
  | behind {first : Word} {behind rest : List Word}
      (later : Leaves decoder ((first :: behind).drop (decoder.countBefore first behind)) rest) :
      Leaves decoder (first :: behind) rest

/-- Decoding reaches the last word as the first one of a two-word instruction. -/
def CutsOff (decoder : Decoder) (doc : Document) (words : List Word) (last : Word) : Prop :=
  decoder.Leaves words [last] ∧ (decoder.decodeBefore last []).main.IsDouble doc

end Decoder

/-- The lines follow each other over the words without a gap, up to the end or to a last word that
has no line because its instruction is cut off. -/
structure Listing.Partitions (doc : Document) (decoder : Decoder) (base : Address)
    (words : List Word) (listing : Listing) : Prop where
  isPrefix : listing.words <+: words
  whole : (∀ last, ¬ decoder.CutsOff doc words last) → listing.words = words
  cut : ∀ last, decoder.CutsOff doc words last → listing.words ++ [last] = words
  line : ∀ k line, listing.lines[k]? = some line →
    let cursor := ((listing.lines.take k).flatMap (·.words)).length
    line.address.toNat = (base.toNat + cursor) % 2 ^ 64 ∧
      ∃ first behind, words.drop cursor = first :: behind ∧ line.words <+: first :: behind ∧
        line.Shows doc (decoder.decodeBefore first behind)

namespace Decoder

variable {doc : Document} {decoder : Decoder} {address : Address} {first : Word}
  {behind : List Word}

theorem countBefore_pos (decoder : Decoder) (first : Word) (behind : List Word) :
    1 ≤ decoder.countBefore first behind := Operation.wordCount_pos _

theorem countBefore_le (decoder : Decoder) (first : Word) (behind : List Word) :
    decoder.countBefore first behind ≤ 2 := Operation.wordCount_le _

theorem main_decodeBefore : (decoder.decodeBefore first behind).main =
    decoder.decodeMain first (behind.headD 0#16) := main_decode decoder first _

theorem length_words_lineBefore (address : Address)
    (inside : decoder.countBefore first behind ≤ (first :: behind).length) :
    (decoder.lineBefore address first behind).words.length = decoder.countBefore first behind :=
  List.length_take_of_le inside

/-- An instruction whose words are all there has one line. -/
theorem listWords_line (inside : decoder.countBefore first behind ≤ (first :: behind).length) :
    decoder.listWords address (first :: behind) =
      (decoder.listWords (address + BitVec.ofNat 64 (decoder.countBefore first behind))
        ((first :: behind).drop (decoder.countBefore first behind))).cons
        (decoder.lineBefore address first behind) := by
  rw [lineBefore]
  rw [countBefore, main_decodeBefore] at inside ⊢
  by_cases double : (decoder.decodeMain first (behind.headD 0#16)).wordCount = 2
  · rw [double] at inside ⊢
    cases behind with
    | nil => simp at inside
    | cons second rest => exact listWords_two address second rest double
  · rw [Operation.wordCount_eq_one double]
    exact listWords_one address behind double

/-- Otherwise it is the last word, and the listing ends. -/
theorem listWords_short (address : Address)
    (outside : ¬ decoder.countBefore first behind ≤ (first :: behind).length) :
    behind = [] ∧ decoder.countBefore first behind = 2 ∧
      decoder.listWords address (first :: behind) =
        ⟨[], some ⟨address, (decoder.decodeBefore first behind).main.name⟩⟩ := by
  have most := decoder.countBefore_le first behind
  rw [List.length_cons] at outside
  have alone : behind = [] := List.length_eq_zero_iff.mp (by omega)
  subst alone
  have double : decoder.countBefore first [] = 2 := by
    rw [List.length_nil] at outside
    omega
  refine ⟨rfl, double, ?_⟩
  rw [main_decodeBefore]
  rw [countBefore, main_decodeBefore] at double
  exact listWords_cut address double

/-- Induction along a listing: the end of the words, an instruction that is cut off, or one that
has a line in front of what is behind it. -/
theorem listWords_induction {motive : Address → List Word → Prop}
    (done : ∀ address, motive address [])
    (cut : ∀ address last, decoder.countBefore last [] = 2 →
      decoder.listWords address [last] =
        ⟨[], some ⟨address, (decoder.decodeBefore last []).main.name⟩⟩ → motive address [last])
    (line : ∀ address first behind,
      decoder.countBefore first behind ≤ (first :: behind).length →
      motive (address + BitVec.ofNat 64 (decoder.countBefore first behind))
        ((first :: behind).drop (decoder.countBefore first behind)) →
      motive address (first :: behind))
    (address : Address) (words : List Word) : motive address words := by
  induction size : words.length using Nat.strongRecOn generalizing address words with
  | ind n ih =>
    subst size
    cases words with
    | nil => exact done address
    | cons first behind =>
      by_cases inside : decoder.countBefore first behind ≤ (first :: behind).length
      · refine line address first behind inside (ih _ ?_ _ _ rfl)
        have least := decoder.countBefore_pos first behind
        rw [List.length_drop]
        rw [List.length_cons] at inside ⊢
        omega
      · obtain ⟨rfl, double, ends⟩ := listWords_short address inside
        exact cut address first double ends

/-- A sweep with a turn for each word that is left, and one to see the end, makes the listing. It
never asks for a word behind the end. -/
theorem sweep_eq_ok (base : Address) (words : List Word) {turns : Nat} (cursor : Nat)
    (enough : words.length < cursor + turns) (inside : cursor ≤ words.length) :
    decoder.sweep base words turns cursor =
      .ok (decoder.listWords (base + BitVec.ofNat 64 cursor) (words.drop cursor)) := by
  induction turns generalizing cursor with
  | zero => omega
  | succ turns ih =>
    have found : words[cursor]? = (words.drop cursor).head? := List.head?_drop.symm
    have next : words[cursor + 1]? = (words.drop cursor).tail.head? := by
      rw [List.tail_drop, List.head?_drop]
    have left : (words.drop cursor).length = words.length - cursor := List.length_drop
    rw [sweep, found, next]
    cases rest : words.drop cursor with
    | nil => rw [listWords]; rfl
    | cons first behind =>
      rw [rest] at left
      have decoded : decoder.decode first (behind.head?.getD 0#16) =
          decoder.decodeBefore first behind := by
        rw [decodeBefore, List.headD_eq_head?_getD]
      have count : (decoder.decodeBefore first behind).main.wordCount =
          decoder.countBefore first behind := rfl
      simp only [List.head?_cons, List.tail_cons, decoded, count]
      -- The slice fails exactly where the listing has no line, and there the loop has left before.
      by_cases fits : decoder.countBefore first behind ≤ (first :: behind).length
      · have taken : slice words cursor (decoder.countBefore first behind) =
            .ok ((first :: behind).take (decoder.countBefore first behind)) := by
          rw [slice, if_pos (by omega), rest]
        have least := decoder.countBefore_pos first behind
        have later := ih (cursor + decoder.countBefore first behind) (by omega) (by omega)
        rw [if_neg, taken, later, ← List.drop_drop, rest, listWords_line fits, BitVec.ofNat_add,
          ← BitVec.add_assoc]
        · rfl
        · rintro ⟨double, alone⟩
          rw [double, List.head?_eq_none_iff.mp alone] at fits
          simp at fits
      · obtain ⟨rfl, double, ends⟩ := listWords_short (base + BitVec.ofNat 64 cursor) fits
        rw [if_pos ⟨double, rfl⟩, ends]

/-- An instruction has two words exactly if it is a two-word main instruction. -/
theorem isDouble_iff (made : ofDocument doc = .ok decoder) :
    (decoder.decodeBefore first behind).main.IsDouble doc ↔
      decoder.countBefore first behind = 2 := by
  rw [countBefore, main_decodeBefore, Operation.wordCount, Operation.IsDouble]
  cases decoded : decoder.decodeMain first (behind.headD 0#16) with
  | decoded instr fields =>
    have listed : instr ∈ doc.instructions := mem_of_instruction? made (by rw [decoded]; rfl)
    by_cases wide : instr.width = .bits32 <;>
      simp [Operation.instruction?, Operation.isFallback, Operation.width, listed, wide]
  | fallback nop => simp [Operation.isFallback, Operation.width]

/-- How many words an instruction has is decided by its first word alone. -/
theorem countBefore_eq (made : ofDocument doc = .ok decoder) (first : Word) (behind : List Word) :
    decoder.countBefore first behind =
      if (((DecisionTree.build doc.instructions).lookup first).bind
        (doc.instructions[·]?)).any (·.width == .bits32) then 2 else 1 := by
  rw [countBefore, main_decodeBefore, Operation.wordCount]
  cases hit : (DecisionTree.build doc.instructions).lookup first with
  | some index =>
    obtain ⟨instr, layout, found, laidOut, decoded⟩ :=
      decodeMain_of_lookup made hit (behind.headD 0#16)
    have width : (layout.read first (behind.headD 0#16)).width = instr.width := by
      rw [← (Layout.ofInstruction_eq_ok laidOut).1]
      rfl
    rw [decoded, width, Option.bind_some, found]
    simp
  | none =>
    rw [decodeMain_of_lookup_eq_none made hit]
    rfl

theorem Leaves.isSuffix {words rest : List Word} (leaves : decoder.Leaves words rest) :
    rest <:+ words := by
  induction leaves with
  | here words => exact List.suffix_refl words
  | behind later ih => exact ih.trans (List.drop_suffix _ _)

/-- A last word is cut off behind an instruction if it is in what the instruction leaves. -/
theorem cutsOff_drop_iff (made : ofDocument doc = .ok decoder)
    (inside : decoder.countBefore first behind ≤ (first :: behind).length) (last : Word) :
    decoder.CutsOff doc (first :: behind) last ↔
      decoder.CutsOff doc ((first :: behind).drop (decoder.countBefore first behind)) last := by
  constructor
  · rintro ⟨leaves, double⟩
    cases leaves with
    | here =>
      rw [(isDouble_iff made).mp double] at inside
      simp at inside
    | behind later => exact ⟨later, double⟩
  · rintro ⟨leaves, double⟩
    exact ⟨.behind leaves, double⟩

theorem shows_lineBefore (made : ofDocument doc = .ok decoder) (address : Address)
    (inside : decoder.countBefore first behind ≤ (first :: behind).length) :
    (decoder.lineBefore address first behind).Shows doc (decoder.decodeBefore first behind) := by
  have size := length_words_lineBefore address inside
  have least := decoder.countBefore_pos first behind
  have most := decoder.countBefore_le first behind
  refine ⟨by omega, by rw [size, isDouble_iff made], rfl, fun unknown => ?_, rfl⟩
  rw [size]
  by_contra double
  have known : (decoder.decodeBefore first behind).main.isFallback = false :=
    Operation.isFallback_of_wordCount (show decoder.countBefore first behind = 2 by omega)
  cases known.symm.trans unknown

end Decoder

namespace Listing.Partitions

variable {doc : Document} {decoder : Decoder} {address : Address}

theorem nil : Partitions doc decoder address [] ⟨[], none⟩ := by
  refine ⟨List.nil_prefix, fun _ => rfl, fun last cut => ?_, fun k line listed => ?_⟩
  · exact absurd cut.1.isSuffix.length_le (by simp)
  · simp at listed

/-- A two-word instruction at the last word has no line. -/
theorem single {last : Word} {truncation : Option Truncation}
    (double : (decoder.decodeBefore last []).main.IsDouble doc) :
    Partitions doc decoder address [last] ⟨[], truncation⟩ := by
  refine ⟨List.nil_prefix, fun none => ?_, fun other cut => ?_, fun k line listed => ?_⟩
  · exact absurd ⟨.here _, double⟩ (none last)
  · exact cut.1.isSuffix.eq_of_length rfl
  · simp at listed

/-- One more line, in front of the lines of the words behind it. -/
theorem cons {first : Word} {behind : List Word} {listing : Listing}
    (made : Decoder.ofDocument doc = .ok decoder)
    (inside : decoder.countBefore first behind ≤ (first :: behind).length)
    (later : Partitions doc decoder
      (address + BitVec.ofNat 64 (decoder.countBefore first behind))
      ((first :: behind).drop (decoder.countBefore first behind)) listing) :
    Partitions doc decoder address (first :: behind)
      (listing.cons (decoder.lineBefore address first behind)) := by
  have cutsOff := Decoder.cutsOff_drop_iff made inside
  have size := Decoder.length_words_lineBefore address inside
  have whole : (decoder.lineBefore address first behind).words ++
      (first :: behind).drop (decoder.countBefore first behind) = first :: behind :=
    List.take_append_drop _ _
  constructor
  · rw [words_cons]
    have longer := (List.prefix_append_right_inj
      (decoder.lineBefore address first behind).words).mpr later.isPrefix
    rwa [whole] at longer
  · intro none
    rw [words_cons, later.whole fun last cut => none last ((cutsOff last).mpr cut), whole]
  · intro last cut
    rw [words_cons, List.append_assoc, later.cut last ((cutsOff last).mp cut), whole]
  · intro k line listed
    cases k with
    | zero =>
      cases listed
      refine ⟨(Nat.mod_eq_of_lt address.isLt).symm, first, behind, rfl, List.take_prefix _ _, ?_⟩
      exact Decoder.shows_lineBefore made address inside
    | succ k =>
      obtain ⟨place, head, tail, left, front, shown⟩ := later.line k line listed
      rw [List.drop_drop] at left
      rw [Listing.cons, List.take_succ_cons, List.flatMap_cons, List.length_append, size]
      refine ⟨?_, head, tail, left, front, shown⟩
      rw [place, BitVec.toNat_add, BitVec.toNat_ofNat]
      omega

end Listing.Partitions

namespace Decoder

variable {doc : Document} {decoder : Decoder}

theorem partitions_listWords (made : ofDocument doc = .ok decoder) (base : Address)
    (words : List Word) :
    (decoder.listWords base words).Partitions doc decoder base words := by
  induction base, words using decoder.listWords_induction with
  | done address =>
    rw [listWords]
    exact .nil
  | cut address last double ends =>
    rw [ends]
    exact .single ((isDouble_iff made).mpr double)
  | line address first behind inside later =>
    rw [listWords_line inside]
    exact .cons made inside later

/-- A listing partitions the whole words of an image, in as many turns as there are words and one
more, and none of its slices is out of range. -/
theorem disassemble_partitions (made : ofDocument doc = .ok decoder) (order : ByteOrder)
    (base : Address) (image : List UInt8) :
    let words := order.words image
    let listing := decoder.disassemble order base image
    (words = (List.range (image.length / 2)).map fun k =>
      order.decode (image.getD (2 * k) 0) (image.getD (2 * k + 1) 0)) ∧
    (∀ turns, words.length < turns → decoder.sweep base words turns 0 = .ok listing) ∧
    listing.Partitions doc decoder base words := by
  refine ⟨order.words_eq image, fun turns enough => ?_, partitions_listWords made base _⟩
  rw [sweep_eq_ok base (order.words image) 0 (by omega) (Nat.zero_le _), BitVec.add_zero]
  rfl

/-- A two-word instruction, a word without one, and a one-word instruction. -/
theorem countBefore_mixedWidths (made : ofDocument doc = .ok decoder)
    (instructions : doc.instructions = [noOperation, loadImmediate]) (behind : List Word) :
    decoder.countBefore 0x6001#16 behind = 2 ∧ decoder.countBefore 0x8000#16 behind = 1 ∧
      decoder.countBefore 0x0007#16 behind = 1 := by
  rw [countBefore_eq made, countBefore_eq made, countBefore_eq made, instructions]
  refine ⟨?_, ?_, ?_⟩ <;> cbv

/-- An image at the last address: a two-word instruction, an unknown word, a one-word instruction,
the first word of another two-word one, and a stray byte. -/
def cutImage : List UInt8 := [0x60, 0x01, 0x23, 0x45, 0x80, 0x00, 0x00, 0x07, 0x60, 0x01, 0xAB]

theorem disassemble_partitions_cutImage :
    ∃ doc decoder, (Loader.new.loadText "mixed" mixedWidths).value.1 = .ok doc ∧
      ofDocument doc = .ok decoder ∧
      let listing := decoder.disassemble .big (BitVec.allOnes 64) cutImage
      decoder.sweep (BitVec.allOnes 64) (ByteOrder.big.words cutImage) 6 0 = .ok listing ∧
      listing.words = [0x6001#16, 0x2345#16, 0x8000#16, 0x0007#16] ∧
      ∃ line, listing.lines[1]? = some line ∧ line.words = [0x8000#16] ∧ line.address = 1#64 := by
  obtain ⟨doc, accepted, instructions⟩ := exists_mixedWidths
  obtain ⟨decoder, made⟩ := exists_of_loadText accepted
  have long (behind : List Word) := (countBefore_mixedWidths made instructions behind).1
  have unknown (behind : List Word) := (countBefore_mixedWidths made instructions behind).2.1
  have short (behind : List Word) := (countBefore_mixedWidths made instructions behind).2.2
  have words : ByteOrder.big.words cutImage =
    [0x6001#16, 0x2345#16, 0x8000#16, 0x0007#16, 0x6001#16] := by decide
  obtain ⟨-, swept, partition⟩ := disassemble_partitions made .big (BitVec.allOnes 64) cutImage
  have cut : decoder.CutsOff doc (ByteOrder.big.words cutImage) 0x6001#16 := by
    rw [words]
    refine ⟨.behind ?_, (isDouble_iff made).mpr (long [])⟩
    rw [long]
    refine .behind ?_
    rw [unknown]
    refine .behind ?_
    rw [short]
    exact .here _
  have shown := partition.cut _ cut
  rw [words] at shown swept
  refine ⟨doc, decoder, accepted, made, swept 6 (by decide), List.append_cancel_right shown, ?_⟩
  have second : (decoder.disassemble .big (BitVec.allOnes 64) cutImage).lines[1]? =
      some (decoder.lineBefore 1#64 0x8000#16 [0x0007#16, 0x6001#16]) := by
    rw [disassemble, words, listWords_line (by rw [long]; decide), long]
    change (decoder.listWords 1#64 [0x8000#16, 0x0007#16, 0x6001#16]).lines[0]? = _
    rw [listWords_line (by rw [unknown]; decide)]
    rfl
  exact ⟨_, second, congrArg (List.take · _) (unknown _), rfl⟩

end Decoder

end DspIsa
