import DspIsa.Proofs.DispatchText
import DspIsa.Proofs.LineTokens

/-! Which lines of a generated decoder are compiled. The label of the source and its digest stand in
the header as they are, each behind the mark of a comment. Their first lines are part of the
comment, and any others are lines of their own. -/
namespace DspIsa.Generated

namespace Source

/-- The lines of a text, without the newlines between them. -/
def textLines (chars : List Char) : List (List Char) := chars.splitOnP (· == '\n')

/-- The line is a comment as a whole. -/
def isCommentLine (line : List Char) : Bool := "//".toList.isPrefixOf line

/-- The lines of a text that are no comments. -/
def codeLines (chars : List Char) : List (List Char) :=
  (textLines chars).filter fun line => !isCommentLine line

/-- The lines of an entry of the header that are no comments, though the entry begins in one. -/
def spilled (entry : String) : List (List Char) :=
  (textLines entry.toList).tail.filter fun line => !isCommentLine line

variable {front : List Char}

theorem textLines_of_unbroken (unbroken : '\n' ∉ front) : textLines front = [front] :=
  List.splitOnP_eq_singleton (Spec.TextLine.ne_newline unbroken)

theorem textLines_cons (unbroken : '\n' ∉ front) (rest : List Char) :
    textLines (front ++ '\n' :: rest) = front :: textLines rest :=
  List.splitOnP_append_cons_of_forall_mem (Spec.TextLine.ne_newline unbroken) '\n' rfl rest

theorem codeLines_newline (front back : List Char) :
    codeLines (front ++ '\n' :: back) = codeLines front ++ codeLines back := by
  rw [codeLines, textLines, List.splitOnP_append_cons _ _ (by decide), List.filter_append]
  rfl

theorem codeLines_written_cons (line : String) (others : List String) :
    codeLines (written (line :: others)) = codeLines line.toList ++ codeLines (written others) := by
  rw [written_cons]
  exact codeLines_newline _ _

theorem codeLines_of_comment {line : List Char} (unbroken : '\n' ∉ line)
    (comment : "//".toList <+: line) : codeLines line = [] := by
  have opened : isCommentLine line = true := List.isPrefixOf_iff_prefix.mpr comment
  rw [codeLines, textLines_of_unbroken unbroken, List.filter_cons_of_neg (by simp [opened])]
  rfl

/-- The mark of a comment reaches to the end of the first line behind it. -/
theorem codeLines_entry {mark : String} (unbroken : '\n' ∉ mark.toList)
    (comment : "//".toList <+: mark.toList) (entry : String) :
    codeLines (mark ++ entry).toList = spilled entry := by
  have opened (first : List Char) : isCommentLine (mark.toList ++ first) = true :=
    List.isPrefixOf_iff_prefix.mpr (comment.trans (List.prefix_append _ _))
  rw [String.toList_append, codeLines, spilled]
  by_cases newline : '\n' ∈ entry.toList
  · obtain ⟨first, rest, parts, whole⟩ := List.eq_append_cons_of_mem newline
    have inside : '\n' ∉ mark.toList ++ first := by simp [unbroken, whole]
    rw [parts, textLines_cons whole, ← List.append_assoc, textLines_cons inside,
      List.filter_cons_of_neg (by simp [opened]), List.tail_cons]
  · have inside : '\n' ∉ mark.toList ++ entry.toList := by simp [unbroken, newline]
    rw [textLines_of_unbroken newline, textLines_of_unbroken inside,
      List.filter_cons_of_neg (by simp [opened])]
    rfl

/-- An entry of one line stays in its comment. -/
theorem spilled_of_unbroken {entry : String} (unbroken : '\n' ∉ entry.toList) :
    spilled entry = [] := by
  rw [spilled, textLines_of_unbroken unbroken]
  rfl

end Source

open Source (codeLines spilled written)

/-- The lines of code in the whole text: those that the label and the digest spill, and those behind
the first three lines of the header, on which neither has any influence. -/
theorem Program.codeLines_text (program : Program) :
    codeLines program.text.toList =
      spilled program.sourceLabel ++ (spilled program.sourceDigest ++
        codeLines (written (program.lines.drop 3))) := by
  have lines : program.lines = "// @generated by dsp-codegen. Do not edit by hand." ::
      ("// Source: " ++ program.sourceLabel) ::
      ("// Source sha256: " ++ program.sourceDigest) :: program.lines.drop 3 := rfl
  rw [text, Source.toList_join_lines, lines]
  simp only [Source.codeLines_written_cons, List.drop_succ_cons, List.drop_zero]
  rw [Source.codeLines_of_comment (by decide) (by decide), List.nil_append,
    Source.codeLines_entry (by decide) (by decide), Source.codeLines_entry (by decide) (by decide)]

namespace Blueprint

variable {doc : Document} {blueprint : Blueprint} {options other : Options}

/-- Two texts for one log target have the same lines of code exactly if both spill the same. -/
theorem codeLines_program_eq_iff (planned : ofDocument doc = .ok blueprint)
    (target : options.logTarget = other.logTarget) :
    codeLines (blueprint.program options).text.toList =
        codeLines (blueprint.program other).text.toList ↔
      spilled options.sourceLabel ++ spilled (options.sourceDigest.getD doc.digest) =
        spilled other.sourceLabel ++ spilled (other.sourceDigest.getD doc.digest) := by
  have common : (blueprint.program options).lines.drop 3 =
      (blueprint.program other).lines.drop 3 := by
    simp only [Program.lines, Program.headerLines, program, target, List.cons_append,
      List.drop_succ_cons]
  rw [Program.codeLines_text, Program.codeLines_text, common, ← List.append_assoc,
    ← List.append_assoc, List.append_left_inj]
  simp only [program, document_of_planned planned]

/-- A text is emitted for every label and digest. With another label or digest it has the same lines
of code exactly if both spill the same lines, and entries of one line spill none. -/
theorem codeLines_eq_iff (planned : ofDocument doc = .ok blueprint)
    (target : options.logTarget = other.logTarget) :
    ∃ text otherText, (doc.emit options).value = .ok text ∧
      (doc.emit other).value = .ok otherText ∧
      (codeLines text.toList = codeLines otherText.toList ↔
        spilled options.sourceLabel ++ spilled (options.sourceDigest.getD doc.digest) =
          spilled other.sourceLabel ++ spilled (other.sourceDigest.getD doc.digest)) ∧
      ((∀ entry ∈ [options.sourceLabel, options.sourceDigest.getD doc.digest, other.sourceLabel,
          other.sourceDigest.getD doc.digest], '\n' ∉ entry.toList) →
        codeLines text.toList = codeLines otherText.toList) := by
  have same := codeLines_program_eq_iff planned target
  refine ⟨_, _, emit_of_planned planned options, emit_of_planned planned other, same, ?_⟩
  intro unbroken
  simp only [List.forall_mem_cons] at unbroken
  obtain ⟨label, digest, otherLabel, otherDigest, -⟩ := unbroken
  rw [same, Source.spilled_of_unbroken label, Source.spilled_of_unbroken digest,
    Source.spilled_of_unbroken otherLabel, Source.spilled_of_unbroken otherDigest]

/-- Options whose label has a second line that is a comment itself. -/
def commentedLabel : Options := { Options.standard with sourceLabel := "dsp\n// spec" }

/-- Options whose label has a second line that is none. -/
def brokenLabel : Options := { Options.standard with sourceLabel := "dsp\nmod spec;" }

/-- A second line of the label does no harm where it is a comment. -/
theorem codeLines_eq_iff_commentedLabel :
    ∃ text otherText,
      (Document.emit ⟨"none", "", [], []⟩ commentedLabel).value = .ok text ∧
      (Document.emit ⟨"none", "", [], []⟩ .standard).value = .ok otherText ∧
      commentedLabel.logTarget = Options.standard.logTarget ∧
      codeLines text.toList = codeLines otherText.toList := by
  obtain ⟨blueprint, planned, -⟩ : ∃ blueprint, ofDocument ⟨"none", "", [], []⟩ = .ok blueprint ∧
    blueprint.Follows _ := exists_ofDocument nofun
  have target : commentedLabel.logTarget = Options.standard.logTarget := rfl
  obtain ⟨text, otherText, first, second, same, -⟩ := codeLines_eq_iff planned target
  exact ⟨text, otherText, first, second, target, same.mpr (by decide)⟩

/-- The second line of the label is code in the one text and not in the other. -/
theorem codeLines_ne_brokenLabel :
    ∃ text otherText,
      (Document.emit ⟨"none", "", [], []⟩ brokenLabel).value = .ok text ∧
      (Document.emit ⟨"none", "", [], []⟩ .standard).value = .ok otherText ∧
      brokenLabel.logTarget = Options.standard.logTarget ∧
      "mod spec;".toList ∈ codeLines text.toList ∧
      codeLines text.toList ≠ codeLines otherText.toList := by
  obtain ⟨blueprint, planned, -⟩ : ∃ blueprint, ofDocument ⟨"none", "", [], []⟩ = .ok blueprint ∧
    blueprint.Follows _ := exists_ofDocument nofun
  have target : brokenLabel.logTarget = Options.standard.logTarget := rfl
  refine ⟨_, _, emit_of_planned planned _, emit_of_planned planned _, target, ?_, ?_⟩
  · have spills : "mod spec;".toList ∈ spilled "dsp\nmod spec;" := by decide
    rw [Program.codeLines_text]
    exact List.mem_append_left _ spills
  · rw [Ne, codeLines_program_eq_iff planned target]
    decide

end Blueprint

end DspIsa.Generated
