import DspIsa.Proofs.Acceptance
import DspIsa.Proofs.LineTokens
import Mathlib.Data.List.Forall2
import Mathlib.Data.List.TakeDrop

/-! The grammar of a spec line, and that reading accepts exactly the texts all of whose lines keep
to it. Each line gives one record, which is determined by the characters of the line. -/
namespace DspIsa

theorem PatternKind.isByte_of_width? {kind : PatternKind} {size : Nat} {width : Width}
    (allowed : kind.width? size = some width) : (width == .bits8) = (kind == .extension) := by
  unfold PatternKind.width? at allowed
  split at allowed <;> cases allowed <;> rfl

namespace Spec

namespace TextLine

/-- The stretches between blanks. -/
def groups (chars : List Char) : List String :=
  ((chars.splitOnP Text.isBlank).filter fun group => !group.isEmpty).map String.ofList

def kind (line : TextLine) : PatternKind := if line.isQuoted then .extension else .main

/-- The groups in front of the first star. -/
def opcode (line : TextLine) : List String := groups (line.body.takeWhile (· != '*'))

/-- The groups behind the first star. -/
def behind (line : TextLine) : List String := groups (line.body.dropWhile (· != '*')).tail

/-- The groups of the bit pattern in one piece; on an extension line two groups come before. -/
def pattern (line : TextLine) : String :=
  String.join (if line.isQuoted then line.behind.drop 2 else line.behind)

/-- How far a text reaches without the blanks at its end. -/
def extent (chars : List Char) : Nat := (chars.reverse.dropWhile Text.isBlank).length

/-- From the first to the last character of the line that is not blank. -/
def span (path : String) (line : TextLine) : Span :=
  ⟨path, line.first, ⟨line.number, extent line.chars + 1⟩⟩

/-- What a line must look like that is neither blank nor a comment. -/
structure Grammatical (line : TextLine) : Prop where
  separator : line.body.count '*' = 1
  opcode : ∃ c ∈ line.body.takeWhile (· != '*'), Text.isBlank c = false
  width : line.pattern.length ∈ if line.isQuoted then [8] else [16, 32]
  digits : ∀ c ∈ line.pattern.toList, ¬ ('2' ≤ c ∧ c ≤ '9')

/-- The first fault of a line, in the order in which faults win. -/
def fault? (line : TextLine) : Option LineFault :=
  match line.body.count '*' with
  | 0 => some .missingSeparator
  | 1 =>
    if line.opcode = [] then some .missingOpcode
    else
      match BitPattern.scan line.kind line.pattern with
      | .error fault => some (.pattern fault)
      | .ok _ => none
  | _ => some .extraSeparator

/-- The record that a line stands for. -/
structure Records (path : String) (line : TextLine) (instr : Instruction) : Prop where
  name : instr.name = "_".intercalate line.opcode
  mnemonic : line.opcode.head? = some instr.mnemonic
  pattern : BitPattern.scan line.kind line.pattern =
    .ok ⟨instr.width, instr.fixedMask, instr.fixedValue, instr.operands⟩
  span : instr.span = line.span path

section Groups

variable {c : Char} {chars rest : List Char}

/-- The characters that go on a group. -/
def isSolid (c : Char) : Bool := !Text.isBlank c

@[simp] theorem groups_nil : groups [] = [] := by decide

theorem groups_blank (blank : Text.isBlank c = true) : groups (c :: rest) = groups rest := by
  rw [groups, List.splitOnP_cons_eq_if_modifyHead, if_pos blank]
  rfl

/-- A stretch without blanks, up to a blank or to the end, is one group. -/
theorem groups_append {word : List Char} (shown : word ≠ [])
    (solid : ∀ c ∈ word, Text.isBlank c = false)
    (ends : ∀ c ∈ rest.head?, Text.isBlank c = true) :
    groups (word ++ rest) = String.ofList word :: groups rest := by
  have kept : (!word.isEmpty) = true := by simpa using shown
  cases rest with
  | nil =>
    rw [List.append_nil, groups, List.splitOnP_eq_singleton solid]
    simp [kept]
  | cons c rest =>
    have blank := ends c rfl
    rw [groups_blank blank, groups, List.splitOnP_append_cons_of_forall_mem solid c blank]
    simp [kept, groups]

theorem groups_solid (solid : Text.isBlank c = false) :
    groups (c :: rest) =
      String.ofList (c :: rest.takeWhile isSolid) :: groups (rest.dropWhile isSolid) := by
  have inside : ∀ d ∈ c :: rest.takeWhile isSolid, Text.isBlank d = false := by
    refine List.forall_mem_cons.mpr ⟨solid, fun d member => ?_⟩
    simpa [isSolid] using List.all_eq_true.mp List.all_takeWhile d member
  have stopped : ∀ d ∈ (rest.dropWhile isSolid).head?, Text.isBlank d = true := by
    intro d head
    have ended := List.head?_dropWhile_not isSolid rest
    rw [Option.mem_def.mp head] at ended
    simpa [isSolid] using ended
  rw [← groups_append (List.cons_ne_nil _ _) inside stopped, List.cons_append,
    List.takeWhile_append_dropWhile]

theorem groups_eq_nil_iff : groups chars = [] ↔ ∀ c ∈ chars, Text.isBlank c = true := by
  induction chars with
  | nil => simp
  | cons c rest ih =>
    cases blank : Text.isBlank c with
    | true => rw [groups_blank blank, ih, List.forall_mem_cons, blank, eq_self, true_and]
    | false => simp [groups_solid blank, blank]

/-- No group has blanks in it. -/
theorem solid_of_mem_groups {group : String} (member : group ∈ groups chars) :
    ∀ c ∈ group.toList, Text.isBlank c = false := by
  induction size : chars.length using Nat.strongRecOn generalizing chars with
  | ind n ih =>
    subst size
    cases chars with
    | nil => simp at member
    | cons c rest =>
      cases blank : Text.isBlank c with
      | true =>
        rw [groups_blank blank] at member
        exact ih rest.length (by simp) member rfl
      | false =>
        rw [groups_solid blank] at member
        rcases List.mem_cons.mp member with rfl | later
        · rw [String.toList_ofList]
          refine List.forall_mem_cons.mpr ⟨blank, fun d inside => ?_⟩
          simpa [isSolid] using List.all_eq_true.mp List.all_takeWhile d inside
        · exact ih _ (Nat.lt_succ_of_le (List.dropWhile_sublist _).length_le) later rfl

theorem extent_append (chars rest : List Char) :
    extent (chars ++ rest) =
      if extent rest = 0 then extent chars else chars.length + extent rest := by
  simp only [extent, List.reverse_append, List.dropWhile_append, List.length_eq_zero_iff,
    List.isEmpty_iff]
  split
  · rfl
  · rw [List.length_append, List.length_reverse, Nat.add_comm]

theorem extent_of_solid (solid : ∀ c ∈ chars, Text.isBlank c = false) :
    extent chars = chars.length := by
  have kept : chars.reverse.dropWhile Text.isBlank = chars.reverse := by
    cases backwards : chars.reverse with
    | nil => rfl
    | cons c rest =>
      have member : c ∈ chars := List.mem_reverse.mp (backwards ▸ List.mem_cons_self)
      simp [solid c member]
  rw [extent, kept, List.length_reverse]

theorem extent_cons (c : Char) (rest : List Char) :
    extent (c :: rest) =
      if extent rest = 0 then (if Text.isBlank c then 0 else 1) else extent rest + 1 := by
  have alone : extent [c] = if Text.isBlank c then 0 else 1 := by
    cases blank : Text.isBlank c <;> simp [extent, blank]
  rw [← List.singleton_append, extent_append, alone, List.length_singleton, Nat.add_comm]

theorem extent_cons_solid (solid : Text.isBlank c = false) (rest : List Char) :
    extent (c :: rest) = extent rest + 1 := by
  rw [extent_cons, solid]
  split
  · rename_i behind
    simp [behind]
  · rfl

end Groups

section Stretch

variable {chars before rest : List Char} {place : Position}

/-- In text without stars or refused characters, words and groups are the same runs. -/
theorem run_isWordChar (clean : Clean chars) (starless : '*' ∉ chars) :
    chars.takeWhile isWordChar = chars.takeWhile isSolid ∧
      chars.dropWhile isWordChar = chars.dropWhile isSolid := by
  induction chars with
  | nil => exact ⟨rfl, rfl⟩
  | cons c rest ih =>
    obtain ⟨head, later⟩ := List.forall_mem_cons.mp clean
    have other : c ≠ '*' := fun same => starless (same ▸ List.mem_cons_self)
    obtain ⟨taken, dropped⟩ := ih later fun member => starless (List.mem_cons_of_mem c member)
    cases blank : Text.isBlank c with
    | true => simp [isWordChar, isSolid, blank]
    | false =>
      have word : isWordChar c = true := by simp [isWordChar, blank, other, head blank]
      have solid : isSolid c = true := by simp [isSolid, blank]
      simp [word, solid, taken, dropped]

/-- Without a star, the tokens of a stretch are its groups. -/
theorem groups_ofStretch (clean : Clean chars) (starless : '*' ∉ chars) (place : Position) :
    (∀ token ∈ Token.ofStretch place chars, token.kind = .word) ∧
      LineParts.lexemes (Token.ofStretch place chars) = groups chars := by
  induction place, chars using Token.ofStretch.induct with
  | case1 place => simp [LineParts.lexemes]
  | case2 place c rest blank ih =>
    rw [Token.ofStretch_blank blank, groups_blank blank]
    exact ih (List.forall_mem_cons.mp clean).2 fun member =>
      starless (List.mem_cons_of_mem c member)
  | case3 place rest _ ih => exact absurd List.mem_cons_self starless
  | case4 place c rest shown other ih =>
    have solid : Text.isBlank c = false := Bool.not_eq_true _ ▸ shown
    have later : '*' ∉ rest := fun member => starless (List.mem_cons_of_mem c member)
    obtain ⟨taken, dropped⟩ := run_isWordChar (List.forall_mem_cons.mp clean).2 later
    obtain ⟨words, same⟩ := ih
      (fun d member => (List.forall_mem_cons.mp clean).2 d
        ((List.dropWhile_sublist _).subset member))
      fun member => later ((List.dropWhile_sublist _).subset member)
    rw [Token.ofStretch_word solid other, groups_solid solid]
    refine ⟨List.forall_mem_cons.mpr ⟨rfl, words⟩, ?_⟩
    rw [LineParts.lexemes, List.map_cons, ← LineParts.lexemes, same, taken, dropped]

/-- A star splits the tokens of a stretch. -/
theorem ofStretch_append_star (place : Position) :
    Token.ofStretch place (before ++ '*' :: rest) =
      Token.ofStretch place before ++ ⟨.star, "*", place.right before.length⟩ ::
        Token.ofStretch (place.right (before.length + 1)) rest := by
  induction place, before using Token.ofStretch.induct with
  | case1 place => simp [Token.ofStretch_star, Position.right]
  | case2 place c before blank ih =>
    rw [List.cons_append, Token.ofStretch_blank blank, Token.ofStretch_blank blank, ih]
    simp [Nat.add_comm, Nat.add_left_comm]
  | case3 place before _ ih =>
    rw [List.cons_append, Token.ofStretch_star, Token.ofStretch_star, ih]
    simp [Nat.add_comm, Nat.add_left_comm]
  | case4 place c before shown other ih =>
    have solid : Text.isBlank c = false := Bool.not_eq_true _ ▸ shown
    have stops : ∀ d ∈ ('*' :: rest).head?, isWordChar d = false := by simp; decide
    have size : (before.takeWhile isWordChar).length + (before.dropWhile isWordChar).length =
        before.length := by
      rw [← List.length_append, List.takeWhile_append_dropWhile]
    rw [List.cons_append, Token.ofStretch_word solid other, Token.ofStretch_word solid other,
      takeWhile_append_of_stops stops, dropWhile_append_of_stops stops, ih, List.length_cons,
      ← size]
    simp [Nat.add_assoc, Nat.add_comm, Nat.add_left_comm]

/-- The last token of a stretch ends where its blanks at the end begin. -/
theorem stop_getLastD_ofStretch (first : Token) :
    ((Token.ofStretch place chars).getLastD first).stop =
      if extent chars = 0 then first.stop else place.right (extent chars) := by
  induction place, chars using Token.ofStretch.induct generalizing first with
  | case1 place => simp [extent]
  | case2 place c rest blank ih =>
    rw [Token.ofStretch_blank blank, ih, extent_cons, if_pos blank]
    by_cases behind : extent rest = 0 <;> simp [behind, Nat.add_comm]
  | case3 place rest shown ih =>
    rw [Token.ofStretch_star, List.getLastD_cons, ih, extent_cons_solid (by decide)]
    have size : "*".length = 1 := rfl
    by_cases behind : extent rest = 0 <;> simp [behind, Token.stop_eq, size, Nat.add_comm]
  | case4 place c rest shown other ih =>
    have solid : Text.isBlank c = false := Bool.not_eq_true _ ▸ shown
    have inside : ∀ d ∈ c :: rest.takeWhile isWordChar, Text.isBlank d = false := by
      refine List.forall_mem_cons.mpr ⟨solid, fun d member => ?_⟩
      have word := List.all_eq_true.mp List.all_takeWhile d member
      simp only [isWordChar, Bool.not_eq_true', Bool.or_eq_false_iff] at word
      exact word.1.1
    have split : c :: rest = (c :: rest.takeWhile isWordChar) ++ rest.dropWhile isWordChar := by
      rw [List.cons_append, List.takeWhile_append_dropWhile]
    rw [Token.ofStretch_word solid other, List.getLastD_cons, ih, split, extent_append,
      extent_of_solid inside]
    by_cases behind : extent (rest.dropWhile isWordChar) = 0 <;>
      simp [behind, Token.stop_eq, Nat.add_comm]

end Stretch

section Parts

variable {chars before rest : List Char} {place : Position} {first : Token}

theorem ne_star (starless : '*' ∉ before) : ∀ c ∈ before, (c != '*') = true := by
  intro c member
  exact bne_iff_ne.mpr fun same => starless (same ▸ member)

theorem takeWhile_star (starless : '*' ∉ before) :
    (before ++ '*' :: rest).takeWhile (· != '*') = before := by
  rw [List.takeWhile_append_of_pos (ne_star starless)]
  simp

theorem dropWhile_star (starless : '*' ∉ before) :
    (before ++ '*' :: rest).dropWhile (· != '*') = '*' :: rest := by
  rw [List.dropWhile_append_of_pos (ne_star starless)]
  simp

/-- Words in front of a star, or of the end, are cut off whole. -/
theorem span_words {words tokens : List Token} (plain : ∀ token ∈ words, token.kind = .word)
    (stops : ∀ token ∈ tokens.head?, token.kind = .star) :
    ((words ++ tokens).span fun token => token.kind != .star) = (words, tokens) := by
  have passed : ∀ token ∈ words, (token.kind != .star) = true := by
    intro token member
    rw [plain token member]
    rfl
  rw [List.span_eq_takeWhile_dropWhile, List.takeWhile_append_of_pos passed,
    List.dropWhile_append_of_pos passed]
  cases tokens with
  | nil => simp
  | cons token tokens => simp [stops token rfl]

theorem find?_star_of_starless (clean : Clean chars) (starless : '*' ∉ chars) :
    (Token.ofStretch place chars).find? (fun token => token.kind == .star) = none := by
  refine List.find?_eq_none.mpr fun token member => ?_
  rw [(groups_ofStretch clean starless place).1 token member]
  decide

theorem exists_find?_star (starred : '*' ∈ chars) (place : Position) :
    ∃ extra ∈ Token.ofStretch place chars,
      (Token.ofStretch place chars).find? (fun token => token.kind == .star) = some extra := by
  obtain ⟨before, rest, rfl, -⟩ := List.eq_append_cons_of_mem starred
  rw [ofStretch_append_star]
  cases found : List.find? (fun token => token.kind == .star) (Token.ofStretch place before ++
      (⟨.star, "*", place.right before.length⟩ : Token) ::
        Token.ofStretch (place.right (before.length + 1)) rest) with
  | some extra => exact ⟨extra, List.mem_of_find?_eq_some found, rfl⟩
  | none => simpa using List.find?_eq_none.mp found ⟨.star, "*", place.right before.length⟩

/-- Without a star there is no separator. -/
theorem ofTokens_starless (clean : Clean chars) (starless : '*' ∉ chars) :
    LineParts.ofTokens first (Token.ofStretch place chars) =
      .error ⟨.missingSeparator, first⟩ := by
  have nothing : ∀ token ∈ ([] : List Token).head?, token.kind = .star := by simp
  have cut := span_words (groups_ofStretch clean starless place).1 nothing
  rw [List.append_nil] at cut
  rw [LineParts.ofTokens, cut]

/-- What becomes of the tokens of a text that a first star splits in two. -/
theorem ofTokens_star (clean : Clean (before ++ '*' :: rest)) (starless : '*' ∉ before) :
    LineParts.ofTokens first (Token.ofStretch place (before ++ '*' :: rest)) =
      match (Token.ofStretch (place.right (before.length + 1)) rest).find?
          fun token => token.kind == .star with
      | some extra => .error ⟨.extraSeparator, extra⟩
      | none =>
        if (Token.ofStretch place before).isEmpty then
          .error ⟨.missingOpcode, ⟨.star, "*", place.right before.length⟩⟩
        else .ok ⟨Token.ofStretch place before, ⟨.star, "*", place.right before.length⟩,
          Token.ofStretch (place.right (before.length + 1)) rest⟩ := by
  have front : Clean before := fun c member => clean c (List.mem_append_left _ member)
  rewrite [LineParts.ofTokens, ofStretch_append_star,
    span_words (groups_ofStretch front starless place).1 (by simp)]
  rfl

theorem isEmpty_ofStretch (clean : Clean chars) (starless : '*' ∉ chars) :
    (Token.ofStretch place chars).isEmpty = true ↔ groups chars = [] := by
  rw [← (groups_ofStretch clean starless place).2, LineParts.lexemes, List.map_eq_nil_iff,
    List.isEmpty_iff]

end Parts

variable {line : TextLine}

theorem extent_visible_ne_zero (kept : line.isIgnored = false) : extent line.visible ≠ 0 := by
  obtain ⟨c, rest, shown, solid⟩ := exists_visible kept
  rw [shown, extent_cons_solid solid]
  exact Nat.succ_ne_zero _

/-- A line ends as far behind its first character as the visible part reaches. -/
theorem span_eq (kept : line.isIgnored = false) (path : String) :
    line.span path = ⟨path, line.first, line.first.right (extent line.visible)⟩ := by
  have parts := List.takeWhile_append_dropWhile (p := Text.isBlank) (l := line.chars)
  have reach := extent_append (line.chars.takeWhile Text.isBlank) line.visible
  rw [visible, parts, ← visible, if_neg (extent_visible_ne_zero kept)] at reach
  rw [span, reach]
  simp [Position.right, first, Nat.add_right_comm]

/-- A stretch that begins with a token has it in front. -/
theorem exists_ofStretch_cons {c : Char} (solid : Text.isBlank c = false) (place : Position)
    (chars : List Char) :
    ∃ token rest, Token.ofStretch place (c :: chars) = token :: rest ∧
      token.kind ≠ .quote ∧ token.start = place := by
  by_cases star : c = '*'
  · subst star
    exact ⟨_, _, Token.ofStretch_star, by simp, rfl⟩
  · exact ⟨_, _, Token.ofStretch_word solid star, by simp, rfl⟩

/-- The tokens of a line: what opens it, and those of its body. -/
theorem exists_tokens (kept : line.isIgnored = false) (path : String) :
    ∃ first rest place, line.tokens = first :: rest ∧
      (if first.kind = .quote then rest else first :: rest) =
        Token.ofStretch place line.body ∧
      (if first.kind = .quote then PatternKind.extension else .main) = line.kind ∧
      (⟨path, first.start, (rest.getLastD first).stop⟩ : Span) = line.span path := by
  have reaches := extent_visible_ne_zero kept
  rw [span_eq kept]
  cases quoted : line.isQuoted with
  | true =>
    obtain ⟨c, rest, shown, -⟩ := exists_visible kept
    obtain rfl : c = '\'' := by simpa [isQuoted, shown] using quoted
    have body : line.body = rest := by simp [body, quoted, shown]
    refine ⟨_, _, _, tokens_of_quoted kept quoted, rfl, by simp [kind, quoted], ?_⟩
    rw [stop_getLastD_ofStretch, body, shown, extent_cons_solid (by decide)]
    have size : "'".length = 1 := rfl
    by_cases behind : extent rest = 0 <;> simp [behind, Token.stop_eq, size, Nat.add_comm]
  | false =>
    obtain ⟨c, rest, shown, solid⟩ := exists_visible kept
    have body : line.body = line.visible := by simp [body, quoted]
    obtain ⟨token, later, same, unquoted, start⟩ :=
      exists_ofStretch_cons solid line.first rest
    rw [← shown] at same
    have last : ((Token.ofStretch line.first line.visible).getLastD token).stop = _ :=
      stop_getLastD_ofStretch token
    rw [same, List.getLastD_cons, if_neg reaches] at last
    refine ⟨token, later, line.first, ?_, ?_, ?_, ?_⟩
    · rw [tokens_of_unquoted kept quoted, body, same]
    · rw [if_neg unquoted, body, same]
    · rw [if_neg unquoted, kind, quoted]
      rfl
    · rw [start, last]

theorem isBadDigit_iff (c : Char) : Pattern.isBadDigit c = true ↔ '2' ≤ c ∧ c ≤ '9' := by
  simp only [Pattern.isBadDigit, Pattern.isFixed, Char.isDigit, Bool.and_eq_true,
    Bool.not_eq_true', Bool.or_eq_false_iff, decide_eq_true_eq, beq_eq_false_iff_ne, Char.le_def,
    UInt32.le_iff_toNat_le, ne_eq, Char.ext_iff, ← UInt32.toNat_inj]
  simp
  omega

/-- A pattern without blanks is read exactly if its width is allowed and no digit is wrong. -/
theorem exists_scan_iff (kind : PatternKind) {text : String}
    (solid : ∀ c ∈ text.toList, Text.isBlank c = false) :
    (∃ pattern, BitPattern.scan kind text = .ok pattern) ↔
      (∃ width, kind.width? text.length = some width) ∧
        ∀ c ∈ text.toList, ¬ ('2' ≤ c ∧ c ≤ '9') := by
  have kept : text.toList.filter (fun c => !Text.isBlank c) = text.toList :=
    List.filter_eq_self.mpr fun c member => by simp [solid c member]
  have good : ((text.toList.zipIdx 1).find? fun entry => Pattern.isBadDigit entry.1) = none ↔
      ∀ c ∈ text.toList, ¬ ('2' ≤ c ∧ c ≤ '9') := by
    simp only [List.find?_eq_none, isBadDigit_iff]
    constructor
    · intro right c member
      rw [← List.zipIdx_map_fst 1 text.toList] at member
      obtain ⟨entry, listed, rfl⟩ := List.mem_map.mp member
      exact right entry listed
    · intro right entry listed
      exact right _ (List.fst_mem_of_mem_zipIdx listed)
  rw [BitPattern.scan, kept, String.length_toList, ← good]
  cases kind.width? text.length with
  | none => simp
  | some width =>
    cases (text.toList.zipIdx 1).find? fun entry => Pattern.isBadDigit entry.1 <;> simp

theorem solid_pattern (line : TextLine) : ∀ c ∈ line.pattern.toList, Text.isBlank c = false := by
  intro c member
  rw [pattern, String.toList_join] at member
  obtain ⟨group, listed, inside⟩ := List.mem_flatMap.mp member
  have behind : group ∈ line.behind := by
    split at listed
    · exact List.mem_of_mem_drop listed
    · exact listed
  exact solid_of_mem_groups behind c inside

/-- What reading makes of a line: the first fault, shown by one of its tokens, or its record. -/
def Judges (path : String) (line : TextLine) : Except MalformedLine Instruction → Prop
  | .error malformed => line.fault? = some malformed.fault ∧ malformed.token ∈ line.tokens
  | .ok instr => line.fault? = none ∧ line.Records path instr

theorem patternText_eq {parts : LineParts} (groups : LineParts.lexemes parts.groups = line.behind) :
    parts.patternText line.kind = line.pattern := by
  rw [LineParts.patternText, LineParts.lexemes, List.map_drop, ← LineParts.lexemes, groups, pattern,
    kind]
  split <;> rfl

/-- The record made of the parts of a line is the one that the line stands for. -/
theorem records_of_parts {parts : LineParts} {pattern : BitPattern} {path : String}
    (names : LineParts.lexemes parts.opcode = line.opcode) (named : line.opcode ≠ [])
    (scanned : BitPattern.scan line.kind line.pattern = .ok pattern) :
    line.Records path ⟨parts.name, parts.mnemonic, pattern.operands, pattern.fixedMask,
      pattern.fixedValue, pattern.width, line.span path⟩ where
  name := by rw [LineParts.name, names]
  mnemonic := by
    obtain ⟨first, rest, same⟩ := List.exists_cons_of_ne_nil named
    rw [LineParts.mnemonic, names, same]
    rfl
  pattern := scanned
  span := rfl

theorem anchor_mem (parts : LineParts) : parts.anchor ∈ parts.star :: parts.groups := by
  rw [LineParts.anchor]
  cases parts.groups <;> simp

theorem readLine_of_ignored (ignored : line.isIgnored = true) (path : String) :
    readLine path line.tokens = none := by
  rw [tokens_of_ignored ignored, readLine]

theorem exists_readLine (kept : line.isIgnored = false) (clean : Clean line.body) (path : String) :
    ∃ outcome, readLine path line.tokens = some outcome ∧ line.Judges path outcome := by
  obtain ⟨first, rest, place, same, body, kind, span⟩ := exists_tokens kept path
  have read : readLine path line.tokens = some (do
      let parts ← LineParts.ofTokens first (Token.ofStretch place line.body)
      match BitPattern.scan line.kind (parts.patternText line.kind) with
      | .error fault => throw ⟨.pattern fault, parts.anchor⟩
      | .ok pattern => pure {
          name := parts.name
          mnemonic := parts.mnemonic
          operands := pattern.operands
          fixedMask := pattern.fixedMask
          fixedValue := pattern.fixedValue
          width := pattern.width
          span := line.span path }) := by
    rewrite [same, readLine, body, kind, span]
    rfl
  have inside : ∀ token ∈ Token.ofStretch place line.body, token ∈ line.tokens := by
    intro token member
    rw [← body] at member
    rw [same]
    split at member
    · exact List.mem_cons_of_mem first member
    · exact member
  by_cases starred : '*' ∈ line.body
  · obtain ⟨before, behind, split, starless⟩ := List.eq_append_cons_of_mem starred
    have opcode : line.opcode = groups before := by rw [opcode, split, takeWhile_star starless]
    have groups : line.behind = groups behind := by
      rw [TextLine.behind, split, dropWhile_star starless, List.tail_cons]
    have count : line.body.count '*' = behind.count '*' + 1 := by
      rw [split, List.count_append, List.count_eq_zero.mpr starless, List.count_cons_self,
        Nat.zero_add]
    have front : Clean before := fun c member => clean c (split ▸ List.mem_append_left _ member)
    have back : Clean behind := fun c member =>
      clean c (split ▸ List.mem_append_right _ (List.mem_cons_of_mem _ member))
    rw [split] at read inside clean
    rw [ofTokens_star clean starless] at read
    rw [ofStretch_append_star] at inside
    by_cases extra : '*' ∈ behind
    · obtain ⟨token, member, found⟩ :=
        exists_find?_star extra (place.right (before.length + 1))
      rw [found] at read
      refine ⟨_, read, ?_, inside _ (by simp [member])⟩
      obtain ⟨more, size⟩ := Nat.exists_eq_succ_of_ne_zero
        (fun none => List.count_eq_zero.mp none extra)
      simp [fault?, count, size]
    · rw [find?_star_of_starless back extra] at read
      rw [List.count_eq_zero.mpr extra, Nat.zero_add] at count
      by_cases unnamed : TextLine.groups before = []
      · rw [if_pos ((isEmpty_ofStretch front starless).mpr unnamed)] at read
        refine ⟨_, read, ?_, inside _ (by simp)⟩
        simp [fault?, count, opcode, unnamed]
      · rw [if_neg (fun empty => unnamed ((isEmpty_ofStretch front starless).mp empty))] at read
        generalize plan : (⟨_, _, _⟩ : LineParts) = parts at read
        have names : LineParts.lexemes parts.opcode = line.opcode := by
          rw [opcode, ← plan, (groups_ofStretch front starless place).2]
        have text : parts.patternText line.kind = line.pattern := patternText_eq (by
          rw [groups, ← plan, (groups_ofStretch back extra _).2])
        have anchored : parts.anchor ∈ line.tokens :=
          inside _ (List.mem_append_right _ (by simpa [← plan] using anchor_mem parts))
        rw [← opcode] at unnamed
        cases scanned : BitPattern.scan line.kind line.pattern with
        | error fault =>
          simp only [bind, Except.bind, text, scanned] at read
          refine ⟨_, read, ?_, anchored⟩
          simp [fault?, count, unnamed, scanned]
        | ok pattern =>
          simp only [bind, Except.bind, text, scanned] at read
          refine ⟨_, read, by simp [fault?, count, unnamed, scanned], ?_⟩
          exact records_of_parts names unnamed scanned
  · rw [ofTokens_starless clean starred] at read
    refine ⟨_, read, ?_, same ▸ List.mem_cons_self⟩
    simp [fault?, List.count_eq_zero.mpr starred]

theorem exists_width_iff (line : TextLine) :
    (∃ width, line.kind.width? line.pattern.length = some width) ↔
      line.pattern.length ∈ if line.isQuoted then [8] else [16, 32] := by
  rw [kind]
  cases line.isQuoted with
  | true =>
    simp only [if_true, List.mem_singleton, PatternKind.width?]
    split <;> simp_all
  | false =>
    simp only [Bool.false_eq_true, if_false, List.mem_cons, List.not_mem_nil, or_false,
      PatternKind.width?]
    split <;> simp_all

/-- A line is without fault exactly if it keeps to the grammar. -/
theorem fault?_eq_none_iff (line : TextLine) : line.fault? = none ↔ line.Grammatical := by
  have named : line.opcode ≠ [] ↔
      ∃ c ∈ line.body.takeWhile (· != '*'), Text.isBlank c = false := by
    rw [opcode, ne_eq, groups_eq_nil_iff]
    simp
  have read := exists_scan_iff line.kind (solid_pattern line)
  rw [exists_width_iff] at read
  constructor
  · intro faultless
    unfold fault? at faultless
    split at faultless
    · cases faultless
    · rename_i separator
      split at faultless
      · cases faultless
      · rename_i opcode
        split at faultless
        · cases faultless
        · rename_i pattern scanned
          obtain ⟨width, digits⟩ := read.mp ⟨pattern, scanned⟩
          exact ⟨separator, named.mp opcode, width, digits⟩
    · cases faultless
  · intro grammatical
    obtain ⟨pattern, scanned⟩ := read.mpr ⟨grammatical.width, grammatical.digits⟩
    simp [fault?, grammatical.separator, named.mpr grammatical.opcode, scanned]

theorem isExtension_of_records {path : String} {instr : Instruction}
    (records : line.Records path instr) : instr.isExtension = line.isQuoted := by
  obtain ⟨chars, -, allowed, -⟩ := BitPattern.scan_eq_ok records.pattern
  rw [Instruction.isExtension, PatternKind.isByte_of_width? allowed, kind]
  cases line.isQuoted <;> rfl

end TextLine

/-- The lines of a text that are neither blank nor comments. -/
def TextLine.remaining (source : String) : List TextLine :=
  (TextLine.ofText source).filter fun line => !line.isIgnored

/-- Every remaining line is judged once, in line order. -/
theorem forall₂_judges (path : String) {rows : List TextLine}
    (clean : ∀ line ∈ rows, line.isIgnored = false → Clean line.body) :
    List.Forall₂ (TextLine.Judges path) (rows.filter fun line => !line.isIgnored)
      ((rows.map TextLine.tokens).filterMap (readLine path)) := by
  induction rows with
  | nil => exact .nil
  | cons line rows ih =>
    obtain ⟨head, later⟩ := List.forall_mem_cons.mp clean
    rw [List.map_cons, List.filterMap_cons, List.filter_cons]
    cases ignored : line.isIgnored with
    | true =>
      rw [TextLine.readLine_of_ignored ignored]
      exact ih later
    | false =>
      obtain ⟨outcome, read, judged⟩ := TextLine.exists_readLine ignored (head ignored) path
      rw [read]
      exact .cons judged (ih later)

/-- The reports of faulty lines, in line order. -/
def reports (path : String) (outcomes : List (Except MalformedLine Instruction)) :
    List Diagnostic :=
  outcomes.filterMap fun
    | .error line => some (line.report path)
    | .ok _ => none

namespace Reader

variable {reader : Reader}

/-- What a call does that stops at a refused character. -/
theorem document_of_refused {found : ControlCharacter}
    (refused : reader.cursor.read.refused = some found) :
    reader.document = (.error (refusalError reader.path found), { reader with
      cursor := reader.cursor.read.cursor
      pending := reader.pending ++
        reports reader.path ((lines reader.cursor.read).filterMap (readLine reader.path)) }) := by
  unfold document
  dsimp only
  rw [refused]
  rfl

/-- A call that gets to the end of the text keeps nothing. -/
theorem snd_document_of_accepted (accepted : reader.cursor.read.refused = none) :
    reader.document.2 = { reader with cursor := reader.cursor.read.cursor, pending := [] } := by
  unfold document
  dsimp only
  rw [accepted]
  dsimp only
  split
  · rfl
  · rfl

/-- What a call comes to that gets to the end of the text. -/
theorem fst_document_of_accepted {outcomes : List (Except MalformedLine Instruction)}
    (accepted : reader.cursor.read.refused = none)
    (read : (lines reader.cursor.read).filterMap (readLine reader.path) = outcomes) :
    reader.document.1 =
      if (reader.pending ++ reports reader.path outcomes).isEmpty then .ok {
        path := reader.path
        digest := Digest.sha256 reader.source
        instructions := (outcomes.filterMap Except.toOption).filter fun instr =>
          !instr.isExtension
        extensions := (outcomes.filterMap Except.toOption).filter fun instr =>
          instr.isExtension }
      else .error (.diagnostics .parser (reader.pending ++ reports reader.path outcomes)) := by
  unfold document
  dsimp only
  rw [accepted, read]
  exact apply_ite Prod.fst _ _ _

end Reader

/-- What reading a text comes to when no character is refused. -/
theorem parse_of_lexed {source : String} {tokens : List Token} {path : String}
    {outcomes : List (Except MalformedLine Instruction)}
    (lexed : Token.ofText source = .ok tokens)
    (read : ((TextLine.ofText source).map TextLine.tokens).filterMap (readLine path) = outcomes) :
    parse path source =
      if (reports path outcomes).isEmpty then .ok {
        path
        digest := Digest.sha256 source
        instructions := (outcomes.filterMap Except.toOption).filter fun instr =>
          !instr.isExtension
        extensions := (outcomes.filterMap Except.toOption).filter fun instr =>
          instr.isExtension }
      else .error (.diagnostics .parser (reports path outcomes)) := by
  obtain ⟨accepted, rows, -⟩ := lines_ofText lexed
  rw [← rows] at read
  exact Reader.fst_document_of_accepted accepted read

/-- What reading a text comes to when every line has been judged. -/
theorem exists_parse {source : String} {tokens : List Token}
    (lexed : Token.ofText source = .ok tokens) (path : String) :
    ∃ outcomes, List.Forall₂ (TextLine.Judges path) (TextLine.remaining source) outcomes ∧
      parse path source =
        if (reports path outcomes).isEmpty then .ok {
          path
          digest := Digest.sha256 source
          instructions := (outcomes.filterMap Except.toOption).filter fun instr =>
            !instr.isExtension
          extensions := (outcomes.filterMap Except.toOption).filter fun instr =>
            instr.isExtension }
        else .error (.diagnostics .parser (reports path outcomes)) := by
  obtain ⟨-, -, clean⟩ := lines_ofText lexed
  exact ⟨_, forall₂_judges path clean, parse_of_lexed lexed rfl⟩

variable {path source : String} {rows : List TextLine}
  {outcomes : List (Except MalformedLine Instruction)}

/-- The reports are those of the lines with a fault, in line order. Each gives the first fault of
its line at one of the tokens of the line. -/
theorem forall₂_reports (judged : List.Forall₂ (TextLine.Judges path) rows outcomes) :
    List.Forall₂ (fun line report => ∃ malformed : MalformedLine,
        line.fault? = some malformed.fault ∧ malformed.token ∈ line.tokens ∧
          report = malformed.report path)
      (rows.filter fun line => line.fault?.isSome) (reports path outcomes) := by
  induction judged with
  | nil => exact .nil
  | @cons line outcome rows outcomes head _ ih =>
    cases outcome with
    | error malformed =>
      obtain ⟨fault, token⟩ := head
      rw [List.filter_cons_of_pos (by simp [fault])]
      exact .cons ⟨malformed, fault, token, rfl⟩ ih
    | ok instr =>
      rw [List.filter_cons_of_neg (by simp [head.1])]
      exact ih

/-- Nothing is reported exactly if every line keeps to the grammar. -/
theorem reports_eq_nil_iff (judged : List.Forall₂ (TextLine.Judges path) rows outcomes) :
    reports path outcomes = [] ↔ ∀ line ∈ rows, line.Grammatical := by
  induction judged with
  | nil => simp [reports]
  | @cons line outcome rows outcomes head _ ih =>
    rw [List.forall_mem_cons, ← ih, ← TextLine.fault?_eq_none_iff]
    cases outcome with
    | error malformed => simp [reports, head.1]
    | ok instr => simp [reports, head.1]

theorem forall₂_records (judged : List.Forall₂ (TextLine.Judges path) rows outcomes)
    (silent : reports path outcomes = []) :
    List.Forall₂ (TextLine.Records path) rows (outcomes.filterMap Except.toOption) := by
  induction judged with
  | nil => exact .nil
  | @cons line outcome rows outcomes head _ ih =>
    cases outcome with
    | error malformed => simp [reports] at silent
    | ok instr => exact .cons head.2 (ih (by simpa [reports] using silent))

/-- Reading accepts a text exactly if all its lines keep to the grammar, and then gives one record
for each line: the extensions those of the quoted lines, the instructions those of the others. -/
theorem parse_iff_grammatical (lexed : ∃ tokens, Token.ofText source = .ok tokens)
    (path : String) :
    ((∃ doc, parse path source = .ok doc) ↔
        ∀ line ∈ TextLine.remaining source, line.Grammatical) ∧
      ∀ doc, parse path source = .ok doc →
        List.Forall₂ (TextLine.Records path)
          ((TextLine.remaining source).filter fun line => line.isQuoted) doc.extensions ∧
        List.Forall₂ (TextLine.Records path)
          ((TextLine.remaining source).filter fun line => !line.isQuoted) doc.instructions := by
  obtain ⟨tokens, lexed⟩ := lexed
  obtain ⟨outcomes, judged, read⟩ := exists_parse lexed path
  rw [← reports_eq_nil_iff judged, read]
  by_cases silent : reports path outcomes = []
  · have records := forall₂_records judged silent
    rw [if_pos (List.isEmpty_iff.mpr silent)]
    refine ⟨⟨fun _ => silent, fun _ => ⟨_, rfl⟩⟩, fun doc accepted => ?_⟩
    cases accepted
    constructor
    · refine List.rel_filter (fun line instr record => ?_) records
      simp only [TextLine.isExtension_of_records record]
    · refine List.rel_filter (fun line instr record => ?_) records
      simp only [TextLine.isExtension_of_records record]
  · rw [if_neg (fun empty => silent (List.isEmpty_iff.mp empty))]
    simp [silent]

/-- A comment, a blank line, an instruction whose star stands between its opcode and its pattern
without a blank, and an extension that ends without a newline. -/
def annotated : String := "# moves\n \t\nMRR*0001 11dd dddd dddd\r\n 'LD R * d d 01rr r0ss"

theorem parse_iff_grammatical_annotated :
    (∃ tokens, Token.ofText annotated = .ok tokens) ∧
      ∃ doc, parse "moves" annotated = .ok doc ∧
        List.Forall₂ (TextLine.Records "moves") [⟨4, " 'LD R * d d 01rr r0ss".toList⟩]
          doc.extensions ∧
        List.Forall₂ (TextLine.Records "moves") [⟨3, "MRR*0001 11dd dddd dddd\r".toList⟩]
          doc.instructions := by
  have lexed : ∃ tokens, Token.ofText annotated = .ok tokens := exists_ofText (by decide +kernel)
  have faultless : ∀ line ∈ TextLine.remaining annotated, line.fault? = none := by decide +kernel
  have quoted : ((TextLine.remaining annotated).filter fun line => line.isQuoted) =
      [⟨4, " 'LD R * d d 01rr r0ss".toList⟩] := by decide +kernel
  have unquoted : ((TextLine.remaining annotated).filter fun line => !line.isQuoted) =
      [⟨3, "MRR*0001 11dd dddd dddd\r".toList⟩] := by decide +kernel
  obtain ⟨accepts, records⟩ := parse_iff_grammatical lexed "moves"
  obtain ⟨doc, read⟩ := accepts.mpr fun line member =>
    (TextLine.fault?_eq_none_iff line).mp (faultless line member)
  obtain ⟨extensions, instructions⟩ := records doc read
  rw [quoted] at extensions
  rw [unquoted] at instructions
  exact ⟨lexed, doc, read, extensions, instructions⟩

end Spec

end DspIsa
