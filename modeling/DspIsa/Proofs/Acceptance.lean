import DspIsa.Loading
import DspIsa.Proofs.Encoding

/-! What a document that was read, and one that was accepted, guarantees about its instructions. -/
namespace DspIsa

/-- Main instructions take one or two words and extensions one byte, all of them well laid out. -/
structure Document.WellFormed (doc : Document) : Prop where
  main : ∀ instr ∈ doc.instructions, instr.WellLaid ∧ instr.width ≠ .bits8
  extension : ∀ instr ∈ doc.extensions, instr.WellLaid ∧ instr.width = .bits8

namespace Spec

/-- A line that is read takes its bits and operands from a pattern. -/
theorem exists_scan_of_readLine {path : String} {tokens : List Token} {instr : Instruction}
    (read : readLine path tokens = some (.ok instr)) :
    ∃ kind text, BitPattern.scan kind text =
      .ok ⟨instr.width, instr.fixedMask, instr.fixedValue, instr.operands⟩ := by
  unfold readLine at read
  split at read
  · cases read
  · rename_i first rest
    have read := Option.some.inj read
    dsimp only at read
    generalize (if first.kind = .quote then PatternKind.extension else .main) = kind at read
    generalize (if first.kind = .quote then rest else first :: rest) = body at read
    cases parted : LineParts.ofTokens first body with
    | error fault => simp [parted, bind, Except.bind] at read
    | ok parts =>
      simp only [parted, bind, Except.bind] at read
      cases scanned : BitPattern.scan kind (parts.patternText kind) with
      | error fault => simp [scanned, throw, throwThe, MonadExceptOf.throw] at read
      | ok pattern =>
        simp only [scanned, pure, Except.pure] at read
        cases read
        exact ⟨kind, parts.patternText kind, scanned⟩

/-- A document holds what its lines give, extensions apart from main instructions. -/
theorem document_eq_ok {reader : Reader} {doc : Document} (read : reader.document.1 = .ok doc) :
    ∃ records : List Instruction,
      (∀ instr ∈ records, ∃ tokens, readLine reader.path tokens = some (.ok instr)) ∧
      doc.instructions = records.filter (fun instr => !instr.isExtension) ∧
      doc.extensions = records.filter fun instr => instr.isExtension := by
  unfold Reader.document at read
  dsimp only at read
  split at read
  · cases read
  · split at read
    · cases read
      refine ⟨_, fun instr record => ?_, rfl, rfl⟩
      obtain ⟨outcome, listed, kept⟩ := List.mem_filterMap.mp record
      obtain ⟨tokens, -, line⟩ := List.mem_filterMap.mp listed
      cases outcome with
      | error fault => cases kept
      | ok found =>
        cases kept
        exact ⟨tokens, line⟩
    · cases read

theorem digest_of_parse {path source : String} {doc : Document}
    (read : parse path source = .ok doc) : doc.digest = Digest.sha256 source := by
  unfold parse Reader.document at read
  dsimp only at read
  split at read
  · cases read
  · split at read
    · cases read
      rfl
    · cases read

/-- Every instruction of a document takes its bits and operands from a pattern. -/
theorem exists_scan_of_parse {path source : String} {doc : Document}
    (read : parse path source = .ok doc) :
    ∀ instr ∈ doc.instructions ++ doc.extensions, ∃ kind text, BitPattern.scan kind text =
      .ok ⟨instr.width, instr.fixedMask, instr.fixedValue, instr.operands⟩ := by
  obtain ⟨records, lines, main, extensions⟩ := document_eq_ok read
  intro instr member
  have record : instr ∈ records := by
    rw [main, extensions] at member
    rcases List.mem_append.mp member with listed | listed
    · exact (List.mem_filter.mp listed).1
    · exact (List.mem_filter.mp listed).1
  obtain ⟨tokens, line⟩ := lines instr record
  exact exists_scan_of_readLine line

theorem wellFormed_of_parse {path source : String} {doc : Document}
    (read : parse path source = .ok doc) : doc.WellFormed := by
  obtain ⟨records, -, main, extensions⟩ := document_eq_ok read
  have laid (instr : Instruction) (member : instr ∈ doc.instructions ++ doc.extensions) :
      instr.WellLaid := by
    obtain ⟨kind, text, scanned⟩ := exists_scan_of_parse read instr member
    exact BitPattern.wellLaid_of_scan scanned
  constructor
  · intro instr member
    refine ⟨laid instr (List.mem_append_left _ member), fun byte => ?_⟩
    rw [main, List.mem_filter] at member
    simp [Instruction.isExtension, byte] at member
  · intro instr member
    refine ⟨laid instr (List.mem_append_right _ member), ?_⟩
    rw [extensions, List.mem_filter] at member
    exact beq_iff_eq.mp member.2

end Spec

/-- An accepted document is one that was read and that the validator has nothing to say about. -/
theorem Loader.loadText_eq_ok {loader : Loader} {path source : String} {doc : Document}
    (accepted : (loader.loadText path source).value.1 = .ok doc) :
    Spec.parse path source = .ok doc ∧ Overlap.find doc.instructions = [] ∧
      ∀ instr ∈ doc.instructions, instr.straddling = [] := by
  unfold loadText at accepted
  split at accepted
  · cases accepted
  · rename_i parsed read
    change ((loader.validator.validate parsed).1.map fun _ => parsed) = .ok doc at accepted
    unfold Validator.validate at accepted
    dsimp only at accepted
    split at accepted
    · rename_i clean
      cases accepted
      rw [List.isEmpty_iff, List.append_eq_nil_iff, List.append_eq_nil_iff, List.map_eq_nil_iff,
        List.flatMap_eq_nil_iff] at clean
      refine ⟨read, clean.1.2, fun instr member => ?_⟩
      exact List.map_eq_nil_iff.mp (clean.2 instr member)
    · cases accepted

/-- What came out is a document with the records found in it, whatever its digest is. -/
theorem Document.exists_eq_ok {outcome : Except SpecError Document}
    {instructions extensions : List Instruction}
    (found : (outcome.toOption.map fun doc => (doc.instructions, doc.extensions)) =
      some (instructions, extensions)) :
    ∃ doc, outcome = .ok doc ∧ doc.instructions = instructions ∧ doc.extensions = extensions := by
  obtain ⟨doc, given, same⟩ := Option.map_eq_some_iff.mp found
  cases outcome with
  | error fault => cases given
  | ok read => exact ⟨doc, congrArg Except.ok (Option.some.inj given), Prod.mk.inj same⟩

/-- A spec is accepted with the records that loading it gives, whatever its digest is. -/
theorem Loader.exists_loadText {loader : Loader} {path source : String}
    {instructions extensions : List Instruction}
    (loaded : ((loader.loadText path source).value.1.toOption.map fun doc =>
      (doc.instructions, doc.extensions)) = some (instructions, extensions)) :
    ∃ doc, (loader.loadText path source).value.1 = .ok doc ∧
      doc.instructions = instructions ∧ doc.extensions = extensions :=
  Document.exists_eq_ok loaded

end DspIsa
