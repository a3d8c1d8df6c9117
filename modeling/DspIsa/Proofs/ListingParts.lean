import DspIsa.Proofs.Sweep

/-! Listing an image in two parts. What one word decodes to does not depend on the word behind it
unless its instruction has two, and such an instruction has no line without its second word. So
the lines of the first part stay as they are when more words follow, and the listing goes on at the
first word that has no line yet. -/
namespace DspIsa

theorem ByteOrder.words_encodeWords_whole (order : ByteOrder) (words : List Word) :
    order.words (order.encodeWords words) = words := by
  have read := order.words_encodeWords words none
  rwa [Option.toList_none, List.append_nil] at read

/-- The lines of a listing that breaks off, and those of the one that goes on behind it. -/
def Listing.followedBy (listing later : Listing) : Listing :=
  ⟨listing.lines ++ later.lines, later.truncation⟩

namespace Decoder

variable {doc : Document} {decoder : Decoder} {first : Word} {behind : List Word}

/-- An operation of one word is the same in front of every other word. -/
theorem decodeMain_eq_of_single (made : ofDocument doc = .ok decoder) {second : Word}
    (single : (decoder.decodeMain first second).wordCount ≠ 2) (other : Word) :
    decoder.decodeMain first second = decoder.decodeMain first other := by
  cases hit : (DecisionTree.build doc.instructions).lookup first with
  | none =>
    rw [decodeMain_of_lookup_eq_none made hit, decodeMain_of_lookup_eq_none made hit]
  | some index =>
    obtain ⟨instr, layout, found, laidOut, decoded⟩ := decodeMain_of_lookup made hit second
    obtain ⟨again, same, listed, laidOutAgain, decodedAgain⟩ := decodeMain_of_lookup made hit other
    cases found.symm.trans listed
    cases laidOut.symm.trans laidOutAgain
    have narrow : instr.width ≠ .bits32 := by
      intro wide
      rw [← (Layout.ofInstruction_eq_ok laidOut).1] at wide
      exact single (by rw [decoded]; exact if_pos wide)
    rw [decoded, decodedAgain]
    exact Layout.read_eq_of_width laidOut narrow first second other

/-- The words behind an instruction whose own words are all there do not matter. -/
theorem decodeBefore_append (made : ofDocument doc = .ok decoder)
    (inside : decoder.countBefore first behind ≤ (first :: behind).length) (more : List Word) :
    decoder.decodeBefore first (behind ++ more) = decoder.decodeBefore first behind := by
  cases behind with
  | cons second rest => rfl
  | nil =>
    have single : (decoder.decodeMain first 0#16).wordCount ≠ 2 := by
      intro double
      rw [countBefore, main_decodeBefore, List.headD_nil, double] at inside
      simp at inside
    unfold decodeBefore decode
    rw [List.headD_nil, decodeMain_eq_of_single made single (([] ++ more).headD 0#16)]

theorem countBefore_append (made : ofDocument doc = .ok decoder)
    (inside : decoder.countBefore first behind ≤ (first :: behind).length) (more : List Word) :
    decoder.countBefore first (behind ++ more) = decoder.countBefore first behind :=
  congrArg (fun decoded => decoded.main.wordCount) (decodeBefore_append made inside more)

theorem lineBefore_append (made : ofDocument doc = .ok decoder)
    (inside : decoder.countBefore first behind ≤ (first :: behind).length) (address : Address)
    (more : List Word) :
    decoder.lineBefore address first (behind ++ more) =
      decoder.lineBefore address first behind := by
  rw [lineBefore, countBefore_append made inside, decodeBefore_append made inside,
    ← List.cons_append, List.take_append_of_le_length inside]
  rfl

/-- The listing of words that go on: the lines of what was there, and then those of what has no line
yet together with the rest. -/
theorem listWords_append (made : ofDocument doc = .ok decoder) (address : Address)
    (front back : List Word) :
    decoder.listWords address (front ++ back) =
      (decoder.listWords address front).followedBy (decoder.listWords
        (address + BitVec.ofNat 64 (decoder.listWords address front).words.length)
        (front.drop (decoder.listWords address front).words.length ++ back)) := by
  induction address, front using decoder.listWords_induction with
  | done address => simp [listWords, Listing.words, Listing.followedBy]
  | cut address last double ends =>
    rw [ends]
    simp [Listing.words, Listing.followedBy]
  | line address first behind inside later =>
    have count := countBefore_append made inside back
    have size := length_words_lineBefore address inside
    have longer : decoder.countBefore first (behind ++ back) ≤
        (first :: (behind ++ back)).length := by
      rw [count, List.length_cons, List.length_append]
      rw [List.length_cons] at inside
      omega
    rw [List.cons_append, listWords_line longer, lineBefore_append made inside, count,
      ← List.cons_append, List.drop_append_of_le_length inside, later, listWords_line inside,
      Listing.words_cons, List.length_append, size, BitVec.ofNat_add, ← BitVec.add_assoc,
      ← List.drop_drop]
    rfl

/-- The lines of an image stay when words are added, and a listing that shows all words of the
first part goes on with the listing of the second. -/
theorem disassemble_append (made : ofDocument doc = .ok decoder) (order : ByteOrder)
    (base : Address) (front back : List Word) :
    let listing (base : Address) (words : List Word) :=
      decoder.disassemble order base (order.encodeWords words)
    (listing base front).lines <+: (listing base (front ++ back)).lines ∧
      ((listing base front).words = front →
        let second := listing (base + BitVec.ofNat 64 front.length) back
        (listing base (front ++ back)).lines = (listing base front).lines ++ second.lines ∧
          (listing base (front ++ back)).truncation = second.truncation) := by
  simp only [disassemble, ByteOrder.words_encodeWords_whole]
  rw [listWords_append made base front back]
  refine ⟨List.prefix_append _ _, fun shown => ?_⟩
  rw [shown, List.drop_length]
  exact ⟨rfl, rfl⟩

/-- A two-word instruction and a one-word one at the last address, in front of a two-word one. -/
theorem disassemble_append_mixedWidths :
    ∃ doc decoder, (Loader.new.loadText "mixed" mixedWidths).value.1 = .ok doc ∧
      ofDocument doc = .ok decoder ∧
      let listing (base : Address) (words : List Word) :=
        decoder.disassemble .little base (ByteOrder.little.encodeWords words)
      (listing (BitVec.allOnes 64) [0x6001#16, 0x2345#16, 0x0007#16]).words =
        [0x6001#16, 0x2345#16, 0x0007#16] ∧
      (listing (BitVec.allOnes 64) [0x6001#16, 0x2345#16, 0x0007#16, 0x6001#16, 0x8000#16]).lines =
        (listing (BitVec.allOnes 64) [0x6001#16, 0x2345#16, 0x0007#16]).lines ++
          (listing 2#64 [0x6001#16, 0x8000#16]).lines := by
  obtain ⟨doc, accepted, instructions⟩ := exists_mixedWidths
  obtain ⟨decoder, made⟩ := exists_of_loadText accepted
  have long (behind : List Word) := (countBefore_mixedWidths made instructions behind).1
  have short (behind : List Word) := (countBefore_mixedWidths made instructions behind).2.2
  have shown : (decoder.disassemble .little (BitVec.allOnes 64)
      (ByteOrder.little.encodeWords [0x6001#16, 0x2345#16, 0x0007#16])).words =
        [0x6001#16, 0x2345#16, 0x0007#16] := by
    rw [disassemble, ByteOrder.words_encodeWords_whole, listWords_line (by rw [long]; decide),
      Listing.words_cons, lineBefore, long]
    change [0x6001#16, 0x2345#16] ++ (decoder.listWords _ [0x0007#16]).words = _
    rw [listWords_line (by rw [short]; decide), Listing.words_cons, lineBefore, short]
    rfl
  obtain ⟨-, whole⟩ := disassemble_append made .little (BitVec.allOnes 64)
    [0x6001#16, 0x2345#16, 0x0007#16] [0x6001#16, 0x8000#16]
  exact ⟨doc, decoder, accepted, made, shown, (whole shown).1⟩

end Decoder

end DspIsa
