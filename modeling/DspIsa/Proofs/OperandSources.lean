import DspIsa.Generation
import DspIsa.Proofs.ControlCharacters
import DspIsa.Proofs.LineGrammar
import DspIsa.Proofs.Overlaps
import DspIsa.Proofs.RoundTrip
import DspIsa.Proofs.TypeNames

/-! Which operands have a source. Validation and decoding draw the line between the two words of
an instruction at the same bit, so nothing that is made of an accepted spec fails on it. -/
namespace DspIsa

/-- A run that fails does so on one of the items. -/
theorem exists_of_mapM_eq_error {Fault Item Result : Type} {step : Item → Except Fault Result}
    {items : List Item} {fault : Fault} (failed : items.mapM step = .error fault) :
    ∃ item ∈ items, step item = .error fault := by
  induction items with
  | nil => cases failed
  | cons item rest ih =>
    rw [List.mapM_cons] at failed
    cases first : step item with
    | error found =>
      rw [first] at failed
      cases failed
      exact ⟨item, List.mem_cons_self, first⟩
    | ok result =>
      cases others : rest.mapM step with
      | error found =>
        rw [first, others] at failed
        cases failed
        obtain ⟨later, member, faulty⟩ := ih others
        exact ⟨later, List.mem_cons_of_mem item member, faulty⟩
      | ok results =>
        rw [first, others] at failed
        cases failed

theorem Instruction.fst_of_mem_straddlers {instr : Instruction} {found : Instruction × Operand}
    (member : found ∈ instr.straddlers) : found.1 = instr := by
  obtain ⟨operand, -, chosen⟩ := List.mem_filterMap.mp member
  obtain ⟨-, same⟩ := Option.ite_none_right_eq_some.mp chosen
  exact congrArg Prod.fst (Option.some.inj same).symm

namespace OperandSource

variable {instr : Instruction} {operand : Operand} {source : OperandSource}

/-- The operands without a source are those with bits in both words. -/
theorem resolve_eq_error_iff {fault : StraddlingOperand} :
    resolve instr operand = .error fault ↔
      (instr.width = .bits32 ∧ operand.low < 16 ∧ 16 ≤ operand.high) ∧
        fault = ⟨instr.name, operand.symbol, operand.low, operand.high⟩ := by
  unfold resolve
  cases instr.width with
  | bits8 => simp
  | bits16 => simp
  | bits32 =>
    dsimp only
    split
    · simp
      omega
    split
    · simp
      omega
    split
    · simp
      omega
    · have low : operand.low < 16 := by omega
      have high : 16 ≤ operand.high := by omega
      simp [low, high, eq_comm]

/-- An instruction cannot be resolved exactly if one of its operands straddles. -/
theorem exists_resolveAll_eq_error_iff :
    (∃ fault, resolveAll instr = .error fault) ↔ instr.straddlers ≠ [] := by
  rw [Instruction.straddlers_ne_nil_iff]
  constructor
  · rintro ⟨fault, failed⟩
    obtain ⟨operand, member, unresolved⟩ := exists_of_mapM_eq_error failed
    obtain ⟨⟨width, low, high⟩, -⟩ := resolve_eq_error_iff.mp unresolved
    exact ⟨width, operand, member, low, high⟩
  · rintro ⟨width, operand, member, low, high⟩
    cases outcome : resolveAll instr with
    | error fault => exact ⟨fault, rfl⟩
    | ok sources =>
      obtain ⟨index, found⟩ := List.mem_iff_getElem?.mp member
      obtain ⟨source, -, resolved⟩ := exists_getElem?_of_mapM outcome found
      rw [resolve_eq_error_iff.mpr ⟨⟨width, low, high⟩, rfl⟩] at resolved
      cases resolved

/-- The source reads bits of its input word, all of them below the limit. -/
def Within (limit : Nat) (source : OperandSource) : Prop :=
  source.range.1 ≤ source.range.2 ∧ source.range.2 < limit

/-- A source stays inside its input word and inside the encoding. -/
theorem within_of_resolve (laid : instr.WellLaid) (member : operand ∈ instr.operands)
    (resolved : resolve instr operand = .ok source) :
    source.Within (min 16 instr.width.bits) := by
  obtain ⟨ordered, inside⟩ := laid.ordered operand member
  unfold resolve at resolved
  cases width : instr.width with
  | bits8 =>
    rw [width] at resolved inside
    cases resolved
    exact ⟨ordered, inside⟩
  | bits16 =>
    rw [width] at resolved inside
    cases resolved
    exact ⟨ordered, inside⟩
  | bits32 =>
    rw [width] at resolved inside
    change operand.high < 32 at inside
    change source.Within 16
    dsimp only at resolved
    split at resolved
    · cases resolved
      constructor
      · exact Nat.sub_le_sub_right ordered 16
      · change operand.high - 16 < 16
        omega
    split at resolved
    · cases resolved
      exact ⟨by decide, by decide⟩
    split at resolved
    · rename_i low
      cases resolved
      exact ⟨ordered, low⟩
    · cases resolved

/-- Every operand of a resolved instruction has a source inside its input word. -/
theorem exists_within (laid : instr.WellLaid) {sources : List OperandSource}
    (resolved : resolveAll instr = .ok sources) (member : operand ∈ instr.operands) :
    ∃ source, resolve instr operand = .ok source ∧
      source.Within (min 16 instr.width.bits) := by
  obtain ⟨index, found⟩ := List.mem_iff_getElem?.mp member
  obtain ⟨source, -, here⟩ := exists_getElem?_of_mapM resolved found
  exact ⟨source, here, within_of_resolve laid member here⟩

end OperandSource

namespace Spec

variable {path source : String} {doc : Document}

/-- The instructions of a document stand for the unquoted lines of its text, in line order. -/
theorem forall₂_instructions (read : parse path source = .ok doc) :
    List.Forall₂ (TextLine.Records path)
      ((TextLine.remaining source).filter fun line => !line.isQuoted) doc.instructions := by
  cases lexed : Token.ofText source with
  | error found =>
    rw [parse_of_refused lexed] at read
    cases read
  | ok tokens =>
    obtain ⟨outcomes, judged, outcome⟩ := exists_parse lexed path
    rw [read] at outcome
    split at outcome
    · rename_i silent
      cases outcome
      refine List.rel_filter (fun line instr record => ?_)
        (forall₂_records judged (List.isEmpty_iff.mp silent))
      simp only [TextLine.isExtension_of_records record]
    · cases outcome

theorem TextLine.nodup_number (source : String) : ((ofText source).map number).Nodup := by
  have numbers : (ofText source).map number =
      ((source.toList.splitOnP (· == '\n')).zipIdx 1).map Prod.snd := by
    rw [ofText, numbered, List.map_map]
    rfl
  rw [numbers, List.zipIdx_map_snd]
  exact List.nodup_range'

theorem map_span {rows : List TextLine} {instrs : List Instruction}
    (records : List.Forall₂ (TextLine.Records path) rows instrs) :
    instrs.map (fun instr => instr.span) = rows.map (TextLine.span path) := by
  induction records with
  | nil => rfl
  | cons record _ ih => rw [List.map_cons, List.map_cons, record.span, ih]

/-- No two instructions of a document have one span, since each has a line of its own. -/
theorem nodup_span (read : parse path source = .ok doc) :
    (doc.instructions.map fun instr => instr.span).Nodup := by
  have kept : ((TextLine.remaining source).filter fun line => !line.isQuoted).Sublist
      (TextLine.ofText source) :=
    List.filter_sublist.trans List.filter_sublist
  have numbers := (TextLine.nodup_number source).sublist (kept.map TextLine.number)
  rw [map_span (forall₂_instructions read)]
  refine List.Nodup.of_map (fun span => span.start.line) ?_
  rw [List.map_map]
  exact numbers

end Spec

namespace Validator

variable {path source : String} {doc : Document} {validator : Validator}

/-- Validating the document reports a straddling operand at the instruction. -/
def ReportsStraddling (validator : Validator) (doc : Document) (instr : Instruction) : Prop :=
  ∃ fault, (validator.validate doc).1 = .error fault ∧
    ∃ report ∈ fault.reports, report.code = "validation.straddling-operand" ∧
      report.span = some instr.span

/-- An operand is reported at an instruction exactly if one of its own straddles. -/
theorem reportsStraddling_iff (read : Spec.parse path source = .ok doc) (used : validator.Used)
    {instr : Instruction} (member : instr ∈ doc.instructions) :
    validator.ReportsStraddling doc instr ↔ instr.straddlers ≠ [] := by
  have outcome := validate_eq used.pending_eq_nil doc
  constructor
  · rintro ⟨fault, failed, report, listed, code, span⟩
    rw [outcome] at failed
    split at failed
    · cases failed
    · cases failed
      rcases List.mem_append.mp listed with overlap | straddler
      · obtain ⟨found, -, rfl⟩ := List.mem_map.mp overlap
        exact absurd code (by decide : "validation.overlapping-encoding" ≠ _)
      · obtain ⟨found, straddles, rfl⟩ := List.mem_map.mp straddler
        obtain ⟨other, owner, own⟩ := List.mem_flatMap.mp straddles
        obtain rfl := Instruction.fst_of_mem_straddlers own
        -- the report is at the span of its own instruction, which no other instruction has
        have same : found.1 = instr := List.inj_on_of_nodup_map (Spec.nodup_span read) owner member
          (Option.some.inj span)
        exact same ▸ List.ne_nil_of_mem own
  · intro straddles
    obtain ⟨found, own⟩ := List.exists_mem_of_ne_nil _ straddles
    have listed : found ∈ doc.instructions.flatMap Instruction.straddlers :=
      List.mem_flatMap.mpr ⟨instr, member, own⟩
    rw [if_neg fun clean => List.ne_nil_of_mem listed clean.2] at outcome
    refine ⟨_, outcome, found.2.complaint found.1, ?_, rfl, ?_⟩
    · exact List.mem_append_right _ (List.mem_map.mpr ⟨found, listed, rfl⟩)
    · exact congrArg (fun owner : Instruction => some owner.span)
        (Instruction.fst_of_mem_straddlers own)

end Validator

/-- Whatever is made of the document comes out: a decoder, a listing of any image, a plan and the
text of a generated decoder. -/
structure Document.Serves (doc : Document) : Prop where
  decoder : ∃ decoder, Decoder.ofDocument doc = .ok decoder
  disassemble : ∀ order base image, ∃ listing, (doc.disassemble order base image).value = .ok listing
  blueprint : ∃ blueprint, Generated.Blueprint.ofDocument doc = .ok blueprint
  emit : ∀ options, ∃ text, (doc.emit options).value = .ok text

/-- A document none of whose operands straddles serves. -/
theorem Document.serves_of_whole {doc : Document}
    (whole : ∀ instr ∈ doc.instructions ++ doc.extensions, instr.straddling = []) : doc.Serves := by
  obtain ⟨decoder, made⟩ := Decoder.exists_of_resolveAll fun instr member =>
    OperandSource.exists_resolveAll (whole instr member)
  obtain ⟨blueprint, planned, -⟩ := Generated.Blueprint.exists_ofDocument whole
  constructor
  · exact ⟨decoder, made⟩
  · intro order base image
    refine ⟨decoder.disassemble order base image, ?_⟩
    rw [disassemble, Document.decoder, made]
    rfl
  · exact ⟨blueprint, planned⟩
  · intro options
    refine ⟨(blueprint.program options).text, ?_⟩
    rw [emit, Document.blueprint, planned]
    rfl

namespace Spec

variable {path source : String} {doc : Document}

/-- Validation reports a straddling operand at an instruction exactly if its operands cannot be
resolved, and those of extensions always can. So an accepted document serves, and each of its
operands has a source that lies in one input word, those of extensions in the low byte. -/
theorem reportsStraddling_iff_unresolved (read : parse path source = .ok doc) :
    (∀ validator : Validator, validator.Used → ∀ instr ∈ doc.instructions,
      (validator.ReportsStraddling doc instr ↔
        ∃ fault, OperandSource.resolveAll instr = .error fault)) ∧
    (∀ instr ∈ doc.extensions, ∃ sources, OperandSource.resolveAll instr = .ok sources) ∧
    ∀ loader : Loader, (loader.loadText path source).value.1 = .ok doc →
      doc.Serves ∧
      (∀ instr ∈ doc.instructions, ∀ operand ∈ instr.operands,
        ∃ source, OperandSource.resolve instr operand = .ok source ∧ source.Within 16) ∧
      ∀ instr ∈ doc.extensions, ∀ operand ∈ instr.operands,
        ∃ source, OperandSource.resolve instr operand = .ok source ∧ source.Within 8 := by
  have formed := wellFormed_of_parse read
  have byte (instr : Instruction) (member : instr ∈ doc.extensions) :
      ∃ sources, OperandSource.resolveAll instr = .ok sources := by
    apply OperandSource.exists_resolveAll
    simp [Instruction.straddling, (formed.extension instr member).2]
  refine ⟨fun validator used instr member => ?_, byte, fun loader accepted => ⟨?_, ?_, ?_⟩⟩
  · rw [Validator.reportsStraddling_iff read used member,
      OperandSource.exists_resolveAll_eq_error_iff]
  · exact Document.serves_of_whole (Decoder.whole_of_loadText accepted)
  · intro instr member operand listed
    obtain ⟨-, -, whole⟩ := Loader.loadText_eq_ok accepted
    obtain ⟨sources, resolved⟩ := OperandSource.exists_resolveAll (whole instr member)
    obtain ⟨source, here, ordered, below⟩ :=
      OperandSource.exists_within (formed.main instr member).1 resolved listed
    exact ⟨source, here, ordered, (Nat.lt_min.mp below).1⟩
  · intro instr member operand listed
    obtain ⟨sources, resolved⟩ := byte instr member
    obtain ⟨laid, width⟩ := formed.extension instr member
    obtain ⟨source, here, within⟩ := OperandSource.exists_within laid resolved listed
    rw [width] at within
    exact ⟨source, here, within⟩

/-- An operand that lies in both words is reported and has no source, and one that fills the lower
part of the first word of an accepted instruction has a source there. -/
theorem reportsStraddling_long :
    (∃ doc, parse "clashing" Validator.clashing = .ok doc ∧ Validator.new.Used ∧
      Validator.new.ReportsStraddling doc Validator.long ∧
      ¬ Validator.new.ReportsStraddling doc Validator.add) ∧
    ∃ doc, parse "mixed" Decoder.mixedWidths = .ok doc ∧
      (Loader.new.loadText "mixed" Decoder.mixedWidths).value.1 = .ok doc ∧ doc.Serves ∧
      ∃ source, OperandSource.resolve Decoder.loadImmediate ⟨17, 28, 'x'⟩ = .ok source ∧
        source.Within 16 := by
  constructor
  · obtain ⟨doc, read, instructions, -⟩ := Document.exists_eq_ok
      (by decide +kernel : ((parse "clashing" Validator.clashing).toOption.map fun doc =>
        (doc.instructions, doc.extensions)) =
          some ([Validator.add, Validator.addExact, Validator.long],
            [⟨"HALT", "HALT", [], 0xFF#32, 0x16#32, .bits8, ⟨"clashing", ⟨4, 1⟩, ⟨4, 28⟩⟩⟩]))
    obtain ⟨reported, -, -⟩ := reportsStraddling_iff_unresolved read
    refine ⟨doc, read, .new, ?_, ?_⟩
    · rw [reported .new .new _ (by simp [instructions])]
      exact ⟨⟨"LONG_I", 'i', 0, 19⟩, by decide⟩
    · rw [reported .new .new _ (by simp [instructions])]
      rintro ⟨fault, failed⟩
      cases failed
  · obtain ⟨doc, accepted, instructions⟩ := Decoder.exists_mixedWidths
    have read := (Loader.loadText_eq_ok accepted).1
    obtain ⟨-, -, served⟩ := reportsStraddling_iff_unresolved read
    obtain ⟨serves, main, -⟩ := served .new accepted
    refine ⟨doc, read, accepted, serves, ?_⟩
    exact main Decoder.loadImmediate (by simp [instructions]) ⟨17, 28, 'x'⟩ (by decide)

end Spec

end DspIsa
