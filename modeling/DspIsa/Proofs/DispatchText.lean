import DspIsa.Generated.Render
import DspIsa.Proofs.TypeNames

/-! Reading the bit helpers and dispatch functions back from their text. What is read is what was
written, whatever the log target is, as long as all names are words. -/
namespace DspIsa.Generated

namespace Source

/-- The value of an arm or of a whole function, as the text states it. -/
inductive Outcome where
  | construct (type : String) (fields : List Field)
  | default (type : String)
  | call (function : String)
  deriving DecidableEq, Repr

inductive Body where
  | value (outcome : Outcome)
  | dispatch (indexBits : List IndexBit) (arms : List (Nat × Outcome)) (otherwise : Outcome)
  deriving DecidableEq, Repr

structure Function where
  name : String
  body : Body
  deriving DecidableEq, Repr

/-- Reads a piece of text from the front and leaves the rest. -/
abbrev Reader := StateT (List Char) Option

/-- A text that has to stand here. -/
def literal (text : String) : Reader Unit := fun chars =>
  (chars.dropPrefix? text.toList).map fun rest => ((), rest)

/-- A word that does not start with a digit. The lone underscore is one: it is reserved, but a type
may have it for a name. -/
def typeName : Reader String := fun chars =>
  match chars.takeWhile isNameChar with
  | [] => none
  | first :: others =>
    if first.isDigit then none
    else some (String.ofList (first :: others), chars.dropWhile isNameChar)

/-- The name of a function or a field, which is not the reserved one. -/
def name : Reader String := do
  let word ← typeName
  if word = "_" then failure else return word

def number : Reader Nat := fun chars =>
  match chars.takeWhile Char.isDigit with
  | [] => none
  | digits => some (Nat.ofDigitChars 10 digits 0, chars.dropWhile Char.isDigit)

/-- The rest behind the quote that closes a string; a backslash hides the character behind it. -/
def behindQuote : List Char → Option (List Char)
  | [] => none
  | '\\' :: _ :: rest => behindQuote rest
  | c :: rest => if c = '"' then some rest else behindQuote rest

/-- A string between double quotes. -/
def quotation : Reader Unit := do
  literal "\""
  fun chars => (behindQuote chars).map fun rest => ((), rest)

/-- The longest run of pieces. -/
def many {Piece : Type} (reader : Reader Piece) (chars : List Char) : List Piece × List Char :=
  match reader.run chars with
  | none => ([], chars)
  | some (piece, rest) =>
    if rest.length < chars.length then
      (piece :: (many reader rest).1, (many reader rest).2)
    else ([], chars)
termination_by chars.length

def repeated {Piece : Type} (reader : Reader Piece) : Reader (List Piece) := fun chars =>
  some (many reader chars)

def line (text : String) : Reader Unit := do
  literal text
  literal "\n"

def input : Reader Input :=
  (do literal "instruction"; return .instruction) <|>
  (do literal "next_instruction"; return .nextInstruction)

def fieldRead : Reader FieldRead :=
  (do
    literal "bit("
    let word ← input
    literal ", "
    let index ← number
    literal ")"
    return .bit word index) <|>
  (do
    literal "bits("
    let word ← input
    literal ", "
    let low ← number
    literal ", "
    let high ← number
    literal ")"
    return .bits word low high) <|>
  (do
    let word ← input
    return .whole word)

def field : Reader Field := do
  let name ← name
  literal ": "
  let source ← fieldRead
  return ⟨name, source⟩

/-- The fields of a value with their braces. -/
def fields : Reader (List Field) :=
  (do literal "\x7b\x7d"; return []) <|>
  (do
    literal "\x7b "
    let first ← field
    let others ← repeated (do literal ", "; field)
    literal " \x7d"
    return first :: others)

/-- A variant behind the name of its family: the value of a type with the variant's name. -/
def variant : Reader Outcome := do
  literal "::"
  let type ← typeName
  literal "("
  literal type
  (do literal "::default())"; return .default type) <|>
    (do
      literal " "
      let fields ← fields
      literal ")"
      return .construct type fields)

/-- A variant around a value of the type with the variant's name, or a call. -/
def outcome : Reader Outcome := do
  let head ← name
  if head = "DspInstruction" then variant
  else do
    literal "(instruction, next_instruction)"
    return .call head

/-- A statement that reports an unknown word; it has no part in the result. -/
def warning (opening message : String) : Reader Unit := do
  literal opening
  quotation
  line message

def indexBit : Reader IndexBit := do
  literal "    index |= ((instruction >> "
  let bit ← number
  literal ") & 0x1) << "
  let slotBit ← number
  line ";"
  return ⟨bit, slotBit⟩

def arm : Reader (Nat × Outcome) := do
  literal "        "
  let index ← number
  literal " => "
  let result ← outcome
  line ","
  return (index, result)

def otherwise : Reader Outcome := do
  line "        _ => \x7b"
  warning "            log::warn!(target: "
    ", \"unknown instruction opcode: \x7b:#06x\x7d (index: \x7b\x7d)\", instruction, index);"
  literal "            "
  let result ← outcome
  literal "\n"
  line "        \x7d"
  return result

def dispatch : Reader Body := do
  line "    let mut index: u16 = 0;"
  let indexBits ← repeated indexBit
  line "    match index \x7b"
  let arms ← repeated arm
  let result ← otherwise
  line "    \x7d"
  return .dispatch indexBits arms result

/-- A body that does not look at the word. -/
def value : Reader Body := do
  warning "    log::warn!(target: "
    ", \"unknown instruction opcode: \x7b:#06x\x7d\", instruction);" <|> pure ()
  literal "    "
  let result ← outcome
  literal "\n"
  return .value result

def body : Reader Body := dispatch <|> value

def function : Reader Function := do
  line "#[allow(unused_variables, clippy::identity_op, clippy::match_single_binding)]"
  literal "pub " <|> pure ()
  literal "fn "
  let name ← name
  line "(instruction: u16, next_instruction: u16) -> DspInstruction \x7b"
  let body ← body
  line "\x7d"
  line ""
  return ⟨name, body⟩

/-- The two helpers, which `FieldRead` calls by name. -/
def helpers : Reader Unit := do
  line "#[inline(always)]"
  line "#[allow(dead_code)]"
  line "const fn bit(word: u16, index: u32) -> u16 \x7b"
  line "    (word >> index) & 0x1"
  line "\x7d"
  line ""
  line "#[inline(always)]"
  line "#[allow(dead_code)]"
  line "const fn bits(word: u16, low: u32, high: u32) -> u16 \x7b"
  line "    (word >> low) & (((1u32 << (high - low + 1)) - 1) as u16)"
  line "\x7d"
  line ""

/-- The functions of a text that holds the helpers and the functions behind them, nothing else. -/
def functions? (text : String) : Option (List Function) :=
  match (do helpers; repeated function : Reader (List Function)).run text.toList with
  | some (functions, []) => some functions
  | _ => none

section Pieces

variable {rest : List Char}

/-- A text in which no word goes on. -/
def Stops (chars : List Char) : Prop := ∀ c ∈ chars.head?, isNameChar c = false

theorem stops_append (text : String) (rest : List Char)
    (stops : text.toList.head?.any (fun c => !isNameChar c) = true) :
    Stops (text.toList ++ rest) := by
  intro c head
  cases chars : text.toList with
  | nil => simp [chars] at stops
  | cons d more =>
    rw [chars] at stops head
    cases head
    simpa using stops

theorem run_literal (text : String) (rest : List Char) :
    (literal text).run (text.toList ++ rest) = some ((), rest) := by
  have found : (text.toList ++ rest).dropPrefix? text.toList = some rest :=
    List.dropPrefix?_eq_some_iff.mpr ⟨text.toList, rfl, beq_self_eq_true _⟩
  change Option.map _ ((text.toList ++ rest).dropPrefix? text.toList) = _
  rw [found]
  rfl

theorem run_literal_eq_none {text : String} {chars : List Char}
    (differs : text.toList.isPrefixOf chars = false) : (literal text).run chars = none := by
  cases found : chars.dropPrefix? text.toList with
  | none =>
    change Option.map _ (chars.dropPrefix? text.toList) = _
    rw [found]
    rfl
  | some rest =>
    obtain ⟨front, rfl, same⟩ := List.dropPrefix?_eq_some_iff.mp found
    rw [← beq_iff_eq.mp same, ← Bool.not_eq_true, List.isPrefixOf_iff_prefix] at differs
    exact absurd (List.prefix_append front rest) differs

theorem takeWhile_append_of_all {p : Char → Bool} {word : List Char}
    (every : ∀ c ∈ word, p c = true) (stops : ∀ c ∈ rest.head?, p c = false) :
    (word ++ rest).takeWhile p = word ∧ (word ++ rest).dropWhile p = rest := by
  rw [List.takeWhile_append_of_pos every, List.dropWhile_append_of_pos every]
  cases rest with
  | nil => simp
  | cons c rest => simp [stops c rfl]

theorem run_bind {Piece Whole : Type} {first : Reader Piece} {next : Piece → Reader Whole}
    {chars rest : List Char} {piece : Piece} (read : first.run chars = some (piece, rest)) :
    (first >>= next).run chars = (next piece).run rest := by
  rw [StateT.run_bind, read]
  rfl

theorem run_typeName {word : String} (isName : IsName word) (stops : Stops rest) :
    typeName.run (word.toList ++ rest) = some (word, rest) := by
  obtain ⟨taken, dropped⟩ := takeWhile_append_of_all isName.chars stops
  obtain ⟨first, others, text⟩ := List.exists_cons_of_ne_nil isName.toList_ne_nil
  have letter : first.isDigit = false := isName.start first (by rw [text]; rfl)
  change (match (word.toList ++ rest).takeWhile isNameChar with
    | [] => none
    | first :: others =>
      if first.isDigit then none else some (String.ofList (first :: others), _)) = _
  rw [taken, dropped, text]
  dsimp only
  rw [letter, if_neg Bool.false_ne_true, ← text, String.ofList_toList]

theorem run_name {word : String} (identifier : IsIdentifier word) (stops : Stops rest) :
    name.run (word.toList ++ rest) = some (word, rest) := by
  rw [name, run_bind (run_typeName identifier.toIsName stops), if_neg identifier.named]
  rfl

theorem run_number (value : Nat) (stops : Stops rest) :
    number.run (value.repr.toList ++ rest) = some (value, rest) := by
  have digits : ∀ c ∈ value.repr.toList, c.isDigit = true := by
    intro c member
    rw [Nat.toList_repr] at member
    exact Nat.isDigit_of_mem_toDigits (by decide) (by decide) member
  have ends : ∀ c ∈ rest.head?, c.isDigit = false := by
    intro c head
    have stopped := stops c head
    rw [← Bool.not_eq_true] at stopped ⊢
    exact fun digit => stopped (isNameChar_of_isDigit digit)
  obtain ⟨taken, dropped⟩ := takeWhile_append_of_all digits ends
  change (match (value.repr.toList ++ rest).takeWhile Char.isDigit with
    | [] => none
    | digits => some (Nat.ofDigitChars 10 digits 0, (_ : List Char))) = _
  rw [taken, dropped, Nat.toList_repr]
  split
  · rename_i empty
    exact absurd empty Nat.toDigits_ne_nil
  · rw [Nat.ofDigitChars_toDigits (by decide) (by decide)]

theorem many_of_run_eq_none {Piece : Type} {reader : Reader Piece} {chars : List Char}
    (ended : reader.run chars = none) : many reader chars = ([], chars) := by
  rw [many.eq_def, ended]

theorem many_of_run {Piece : Type} {reader : Reader Piece} {chars rest : List Char} {piece : Piece}
    (read : reader.run chars = some (piece, rest)) (shorter : rest.length < chars.length) :
    many reader chars = (piece :: (many reader rest).1, (many reader rest).2) := by
  conv => lhs; rw [many.eq_def, read]
  exact if_pos shorter

/-- A run of pieces is read whole, up to a text that is no such piece. -/
theorem run_repeated {Item Piece : Type} {reader : Reader Piece} {text : Item → List Char}
    {piece : Item → Piece} {items : List Item}
    (reads : ∀ item ∈ items, ∀ rest, reader.run (text item ++ rest) = some (piece item, rest))
    (shown : ∀ item ∈ items, text item ≠ []) (ended : reader.run rest = none) :
    (repeated reader).run (items.flatMap text ++ rest) = some (items.map piece, rest) := by
  change some (many reader (items.flatMap text ++ rest)) = _
  refine congrArg some ?_
  induction items with
  | nil => exact many_of_run_eq_none ended
  | cons item items ih =>
    obtain ⟨head, readRest⟩ := List.forall_mem_cons.mp reads
    obtain ⟨visible, shownRest⟩ := List.forall_mem_cons.mp shown
    have shorter : (items.flatMap text ++ rest).length <
        (text item ++ (items.flatMap text ++ rest)).length := by
      have size := List.length_pos_of_ne_nil visible
      simp only [List.length_append]
      omega
    rw [List.flatMap_cons, List.append_assoc, many_of_run (head _) shorter, ih readRest shownRest]
    rfl

end Pieces

section Chain

variable {Whole : Type} {rest : List Char}

theorem run_bind_literal (text : String) (next : Unit → Reader Whole) :
    (literal text >>= next).run (text.toList ++ rest) = (next ()).run rest :=
  run_bind (run_literal text rest)

theorem run_bind_number (value : Nat) (text : String) (next : Nat → Reader Whole)
    (stops : text.toList.head?.any (fun c => !isNameChar c) = true) :
    (number >>= next).run (value.repr.toList ++ (text.toList ++ rest)) =
      (next value).run (text.toList ++ rest) :=
  run_bind (run_number value (stops_append text rest stops))

theorem run_bind_typeName {word : String} (isName : IsName word) (text : String)
    (next : String → Reader Whole)
    (stops : text.toList.head?.any (fun c => !isNameChar c) = true) :
    (typeName >>= next).run (word.toList ++ (text.toList ++ rest)) =
      (next word).run (text.toList ++ rest) :=
  run_bind (run_typeName isName (stops_append text rest stops))

theorem run_bind_name {word : String} (identifier : IsIdentifier word) (text : String)
    (next : String → Reader Whole)
    (stops : text.toList.head?.any (fun c => !isNameChar c) = true) :
    (name >>= next).run (word.toList ++ (text.toList ++ rest)) =
      (next word).run (text.toList ++ rest) :=
  run_bind (run_name identifier (stops_append text rest stops))

end Chain

section Lines

variable {rest : List Char}

theorem run_pure {Piece : Type} (piece : Piece) (chars : List Char) :
    (pure piece : Reader Piece).run chars = some (piece, chars) := rfl

theorem run_orElse_left {Piece : Type} {first second : Reader Piece} {chars : List Char}
    {read : Piece × List Char} (done : first.run chars = some read) :
    (first <|> second).run chars = some read := by
  change (first.run chars).orElse _ = _
  rw [done]
  rfl

theorem run_orElse_right {Piece : Type} {first second : Reader Piece} {chars : List Char}
    (missed : first.run chars = none) : (first <|> second).run chars = second.run chars := by
  change (first.run chars).orElse _ = _
  rw [missed]
  rfl

theorem run_bind_eq_none {Piece Whole : Type} {first : Reader Piece}
    {next : Piece → Reader Whole} {chars : List Char} (missed : first.run chars = none) :
    (first >>= next).run chars = none := by
  rw [StateT.run_bind, missed]
  rfl

theorem run_indexBit (entry : IndexBit) (rest : List Char) :
    indexBit.run ((entry.line ++ "\n").toList ++ rest) = some (entry, rest) := by
  have text : entry.line = "    index |= ((instruction >> " ++ entry.bit.repr ++ ") & 0x1) << " ++
    entry.slotBit.repr ++ ";" := rfl
  simp only [text, String.toList_append, List.append_assoc, indexBit, line]
  simp (disch := decide) only [run_bind_literal, run_bind_number, bind_assoc, run_pure]

theorem run_input (word : Input) : input.run (word.render.toList ++ rest) = some (word, rest) := by
  cases word with
  | instruction => exact run_orElse_left (run_bind_literal "instruction" _)
  | nextInstruction =>
    refine (run_orElse_right ?_).trans (run_bind_literal "next_instruction" _)
    exact run_bind_eq_none (run_literal_eq_none rfl)

theorem run_bind_input {Whole : Type} (word : Input) (next : Input → Reader Whole) :
    (input >>= next).run (word.render.toList ++ rest) = (next word).run rest :=
  run_bind (run_input word)

theorem run_fieldRead (source : FieldRead) :
    fieldRead.run (source.render.toList ++ rest) = some (source, rest) := by
  cases source with
  | whole word =>
    have text : (FieldRead.whole word).render = word.render := rfl
    rw [text, fieldRead, run_orElse_right, run_orElse_right]
    · exact run_bind (run_input word)
    · cases word <;> exact run_bind_eq_none (run_literal_eq_none rfl)
    · cases word <;> exact run_bind_eq_none (run_literal_eq_none rfl)
  | bit word index =>
    have text : (FieldRead.bit word index).render =
      "bit(" ++ word.render ++ ", " ++ index.repr ++ ")" := rfl
    simp only [text, String.toList_append, List.append_assoc]
    refine run_orElse_left ?_
    simp (disch := decide) only [run_bind_literal, run_bind_input, run_bind_number, run_pure]
  | bits word low high =>
    have text : (FieldRead.bits word low high).render =
      "bits(" ++ word.render ++ ", " ++ low.repr ++ ", " ++ high.repr ++ ")" := rfl
    simp only [text, String.toList_append, List.append_assoc]
    refine (run_orElse_right (run_bind_eq_none (run_literal_eq_none rfl))).trans
      (run_orElse_left ?_)
    simp (disch := decide) only [run_bind_literal, run_bind_input, run_bind_number, run_pure]

theorem run_field {entry : Field} (identifier : IsIdentifier entry.name) :
    field.run (entry.render.toList ++ rest) = some (entry, rest) := by
  have text : entry.render = entry.name ++ ": " ++ entry.source.render := rfl
  simp only [text, String.toList_append, List.append_assoc, field]
  simp (disch := decide) only [run_bind_name identifier, run_bind_literal]
  exact run_bind (run_fieldRead entry.source)

/-- The fields of a type in their braces. -/
def braced (fields : List Field) : String :=
  if fields.isEmpty then "\x7b\x7d"
  else "\x7b " ++ ", ".intercalate (fields.map Field.render) ++ " \x7d"

theorem toList_intercalate_cons (first : String) (others : List String) :
    (", ".intercalate (first :: others)).toList =
      first.toList ++ others.flatMap fun text => ", ".toList ++ text.toList := by
  induction others generalizing first with
  | nil => simp only [String.intercalate_singleton, List.flatMap_nil, List.append_nil]
  | cons second others ih =>
    rw [String.intercalate_cons_cons, String.toList_append, String.toList_append, ih,
      List.flatMap_cons, List.append_assoc, List.append_assoc]

theorem run_fields {entries : List Field} (names : ∀ entry ∈ entries, IsIdentifier entry.name) :
    fields.run ((braced entries).toList ++ rest) = some (entries, rest) := by
  cases entries with
  | nil => exact run_orElse_left (run_bind_literal "\x7b\x7d" _)
  | cons first others =>
    obtain ⟨head, later⟩ := List.forall_mem_cons.mp names
    have text : braced (first :: others) =
      "\x7b " ++ ", ".intercalate (first.render :: others.map Field.render) ++ " \x7d" := rfl
    simp only [text, String.toList_append, toList_intercalate_cons, List.append_assoc,
      List.flatMap_map]
    refine (run_orElse_right (run_bind_eq_none (run_literal_eq_none rfl))).trans ?_
    have more : (repeated (do literal ", "; field)).run
        ((others.flatMap fun entry => ", ".toList ++ entry.render.toList) ++
          (" \x7d".toList ++ rest)) = some (others.map id, " \x7d".toList ++ rest) := by
      refine run_repeated ?_ ?_ (run_bind_eq_none (run_literal_eq_none rfl))
      · intro entry member rest
        rw [List.append_assoc, run_bind_literal]
        exact run_field (later entry member)
      · intro entry _ empty
        simp at empty
    rw [run_bind_literal, run_bind (run_field head), run_bind more, run_bind_literal, List.map_id,
      run_pure]

/-- What the text says about a value of a type. -/
def Outcome.ofArmBody : ArmBody → Outcome
  | .construct type => .construct type.ident type.fields
  | .call function => .call function

/-- A type whose name is a word and whose fields have legal names. -/
structure Legible (type : OpcodeType) : Prop where
  ident : IsName type.ident
  fields : ∀ entry ∈ type.fields, IsIdentifier entry.name

theorem isIdentifier_dspInstruction : IsIdentifier "DspInstruction" :=
  isIdentifier_of_isAlpha rfl (by decide) (by decide)

theorem toList_construct (type : OpcodeType) (family : String) :
    (type.construct family).toList = family.toList ++ ("::".toList ++ (type.ident.toList ++
      ("(".toList ++ (type.ident.toList ++ (" ".toList ++ ((braced type.fields).toList ++
        ")".toList)))))) := by
  have text : type.construct family = family ++ "::" ++ type.ident ++ "(" ++
    type.ident ++ " " ++ braced type.fields ++ ")" := rfl
  simp only [text, String.toList_append, List.append_assoc]

theorem toList_defaultValue (type : OpcodeType) (family : String) :
    (type.defaultValue family).toList = family.toList ++ ("::".toList ++ (type.ident.toList ++
      ("(".toList ++ (type.ident.toList ++ "::default())".toList)))) := by
  have text : type.defaultValue family = family ++ "::" ++ type.ident ++ "(" ++
    type.ident ++ "::default())" := rfl
  simp only [text, String.toList_append, List.append_assoc]

theorem run_variant_construct {type : OpcodeType} (legible : Legible type) (rest : List Char) :
    variant.run ("::".toList ++ (type.ident.toList ++ ("(".toList ++ (type.ident.toList ++
      (" ".toList ++ ((braced type.fields).toList ++ (")".toList ++ rest))))))) =
        some (.construct type.ident type.fields, rest) := by
  rw [variant]
  simp (disch := decide) only [run_bind_literal, run_bind_typeName legible.ident]
  refine (run_orElse_right (run_bind_eq_none (run_literal_eq_none rfl))).trans ?_
  rw [run_bind_literal, run_bind (run_fields legible.fields), run_bind_literal, run_pure]

theorem run_variant_default {type : OpcodeType} (isName : IsName type.ident) (rest : List Char) :
    variant.run ("::".toList ++ (type.ident.toList ++ ("(".toList ++ (type.ident.toList ++
      ("::default())".toList ++ rest))))) = some (.default type.ident, rest) := by
  rw [variant]
  simp (disch := decide) only [run_bind_literal, run_bind_typeName isName]
  exact run_orElse_left (run_bind_literal "::default())" _)

theorem run_outcome_variant (rest : List Char) :
    outcome.run ("DspInstruction".toList ++ ("::".toList ++ rest)) =
      variant.run ("::".toList ++ rest) := by
  rw [outcome, run_bind_name isIdentifier_dspInstruction _ _ (by decide), if_pos rfl]

theorem run_construct {type : OpcodeType} (legible : Legible type) (rest : List Char) :
    outcome.run ((type.construct "DspInstruction").toList ++ rest) =
      some (.construct type.ident type.fields, rest) := by
  simp only [toList_construct, List.append_assoc]
  rw [run_outcome_variant, run_variant_construct legible]

theorem run_default {type : OpcodeType} (isName : IsName type.ident) (rest : List Char) :
    outcome.run ((type.defaultValue "DspInstruction").toList ++ rest) =
      some (.default type.ident, rest) := by
  simp only [toList_defaultValue, List.append_assoc]
  rw [run_outcome_variant, run_variant_default isName]

theorem run_call {function : String} (identifier : IsIdentifier function)
    (other : function ≠ "DspInstruction") (rest : List Char) :
    outcome.run ((function ++ "(instruction, next_instruction)").toList ++ rest) =
      some (.call function, rest) := by
  simp only [String.toList_append, List.append_assoc, outcome]
  simp (disch := decide) only [run_bind_name identifier, if_neg other, run_bind_literal, run_pure]

/-- A character that neither ends a string nor hides the one behind it. -/
def IsPlain (c : Char) : Prop := c ≠ '\\' ∧ c ≠ '"'

instance (c : Char) : Decidable (IsPlain c) := inferInstanceAs (Decidable (_ ∧ _))

theorem behindQuote_plain {c : Char} (plain : IsPlain c) (rest : List Char) :
    behindQuote (c :: rest) = behindQuote rest := by
  cases rest with
  | nil => simp [behindQuote, plain.2]
  | cons d rest =>
    rw [behindQuote.eq_def]
    split
    · rename_i empty
      cases empty
    · rename_i same
      cases same
      exact absurd rfl plain.1
    · rename_i same
      cases same
      exact if_neg plain.2

theorem behindQuote_append {chars : List Char} (plain : ∀ c ∈ chars, IsPlain c)
    (rest : List Char) : behindQuote (chars ++ rest) = behindQuote rest := by
  induction chars with
  | nil => rfl
  | cons c chars ih =>
    obtain ⟨head, later⟩ := List.forall_mem_cons.mp plain
    rw [List.cons_append, behindQuote_plain head, ih later]

/-- No escaped character ends its string. -/
theorem behindQuote_escape (c : Char) (rest : List Char) :
    behindQuote ((Text.escape c).toList ++ rest) = behindQuote rest := by
  unfold Text.escape
  split
  · rfl
  split
  · rfl
  split
  · rfl
  split
  · rfl
  split
  · rfl
  split
  · rfl
  split
  · simp only [String.toList_append, List.append_assoc]
    have opened : ∀ c ∈ ['\x7b'], IsPlain c := List.forall_mem_singleton.mpr (by decide)
    have closed : ∀ c ∈ ['\x7d'], IsPlain c := List.forall_mem_singleton.mpr (by decide)
    exact (behindQuote_append opened _).trans
      ((behindQuote_append (forall_mem_hex (p := IsPlain) (by decide) 1 c.toNat) _).trans
        (behindQuote_append closed _))
  · rename_i quote backslash _
    rw [Char.toString, String.toList_singleton]
    exact behindQuote_plain ⟨backslash, quote⟩ rest

theorem run_quotation (text : String) :
    quotation.run ((Text.quoted text).toList ++ rest) = some ((), rest) := by
  have inside : behindQuote ((String.join (text.toList.map Text.escape)).toList ++
      ("\"".toList ++ rest)) = some rest := by
    rw [String.toList_join, List.flatMap_map]
    induction text.toList with
    | nil => rfl
    | cons c chars ih =>
      rw [List.flatMap_cons, List.append_assoc, behindQuote_escape]
      exact ih
  simp only [Text.quoted, String.toList_append, List.append_assoc, quotation]
  rw [run_bind_literal]
  change Option.map _ (behindQuote _) = _
  rw [inside]
  rfl

theorem run_line (text : String) :
    (line text).run (text.toList ++ ("\n".toList ++ rest)) = some ((), rest) := by
  rw [line, run_bind_literal, run_literal]

theorem run_warning (opening message target : String) :
    (warning opening message).run
      ((opening ++ Text.quoted target ++ message).toList ++ ("\n".toList ++ rest)) =
        some ((), rest) := by
  simp only [String.toList_append, List.append_assoc, warning]
  rw [run_bind_literal, run_bind (run_quotation target), run_line]

theorem run_bind_line {Whole : Type} (text : String) (next : Unit → Reader Whole) :
    (line text >>= next).run (text.toList ++ ("\n".toList ++ rest)) = (next ()).run rest :=
  run_bind (run_line text)

/-- The characters of lines that are all ended. -/
def written (lines : List String) : List Char :=
  lines.flatMap fun line => line.toList ++ "\n".toList

@[simp] theorem written_nil : written [] = [] := rfl

theorem written_cons (first : String) (others : List String) :
    written (first :: others) = first.toList ++ ("\n".toList ++ written others) := by
  rw [written, List.flatMap_cons, List.append_assoc]
  rfl

theorem written_append (front back : List String) :
    written (front ++ back) = written front ++ written back :=
  List.flatMap_append

theorem written_map {Item : Type} (items : List Item) (line : Item → String) :
    written (items.map line) = items.flatMap fun item => (line item).toList ++ "\n".toList :=
  List.flatMap_map ..

/-- A line for each item is read as a piece for each, up to a text that is no such line. -/
theorem run_repeated_lines {Item Piece : Type} {reader : Reader Piece} {line : Item → String}
    {piece : Item → Piece} {items : List Item}
    (reads : ∀ item ∈ items, ∀ rest,
      reader.run (((line item).toList ++ "\n".toList) ++ rest) = some (piece item, rest))
    (ended : reader.run rest = none) :
    (repeated reader).run (written (items.map line) ++ rest) = some (items.map piece, rest) := by
  rw [written_map]
  refine run_repeated reads (fun item _ empty => ?_) ended
  simp at empty

/-- An arm whose names can be read. -/
def LegibleArm : ArmBody → Prop
  | .construct type => Legible type
  | .call function => IsIdentifier function ∧ function ≠ "DspInstruction"

theorem run_arm {entry : Arm} (legible : LegibleArm entry.body) :
    arm.run ((entry.line.toList ++ "\n".toList) ++ rest) =
      some ((entry.index, .ofArmBody entry.body), rest) := by
  obtain ⟨index, body⟩ := entry
  cases body with
  | construct type =>
    have text : (⟨index, .construct type⟩ : Arm).line =
      "        " ++ index.repr ++ " => " ++ type.construct "DspInstruction" ++ "," := rfl
    simp only [text, String.toList_append, List.append_assoc, arm]
    simp (disch := decide) only [run_bind_literal, run_bind_number]
    rw [run_bind (run_construct legible _), run_bind_line]
    rfl
  | call function =>
    have text : (⟨index, .call function⟩ : Arm).line =
      "        " ++ index.repr ++ " => " ++
        (function ++ "(instruction, next_instruction)") ++ "," := rfl
    have result := run_call legible.1 legible.2 (",".toList ++ ("\n".toList ++ rest))
    simp only [text, String.toList_append, List.append_assoc, arm] at result ⊢
    simp (disch := decide) only [run_bind_literal, run_bind_number]
    rw [run_bind result, run_bind_line]
    rfl

/-- What the text says about a function body. -/
def Body.ofFunctionBody : FunctionBody → Body
  | .direct type => .value (.construct type.ident type.fields)
  | .unknown nop => .value (.default nop.ident)
  | .dispatch indexBits arms nop =>
    .dispatch indexBits (arms.map fun arm => (arm.index, .ofArmBody arm.body)) (.default nop.ident)

/-- A function body whose names can be read. -/
def LegibleBody : FunctionBody → Prop
  | .direct type => Legible type
  | .unknown nop => IsName nop.ident
  | .dispatch _ arms nop => (∀ arm ∈ arms, LegibleArm arm.body) ∧ IsName nop.ident

/-- The lines of the arm that takes every other index. -/
def otherwiseLines (nop : OpcodeType) (target : String) : List String := [
  "        _ => \x7b",
  "            log::warn!(target: " ++ Text.quoted target ++
    ", \"unknown instruction opcode: \x7b:#06x\x7d (index: \x7b\x7d)\", instruction, index);",
  "            " ++ nop.defaultValue "DspInstruction",
  "        \x7d"]

theorem run_otherwise {nop : OpcodeType} (isName : IsName nop.ident) (target : String) :
    otherwise.run (written (otherwiseLines nop target) ++ rest) =
      some (.default nop.ident, rest) := by
  simp only [otherwiseLines, written_cons, written_nil, List.append_assoc, List.nil_append,
    otherwise, run_bind_line]
  rw [run_bind (run_warning ..), String.toList_append, List.append_assoc, run_bind_literal,
    run_bind (run_default isName _), run_bind_literal, run_bind_line]
  rfl

/-- The arm that takes every other index has no number. -/
theorem run_arm_eq_none (nop : OpcodeType) (target : String) (rest : List Char) :
    arm.run (written (otherwiseLines nop target) ++ rest) = none := by
  rw [otherwiseLines, written_cons, List.append_assoc]
  generalize "\n".toList ++ _ ++ rest = behind
  have split : "        _ => \x7b".toList ++ behind =
    "        ".toList ++ ("_ => \x7b".toList ++ behind) := rfl
  rw [split, arm, run_bind_literal]
  exact run_bind_eq_none rfl

theorem run_dispatch {indexBits : List IndexBit} {arms : List Arm} {nop : OpcodeType}
    (legible : LegibleBody (.dispatch indexBits arms nop)) (target : String) :
    dispatch.run (written ((FunctionBody.dispatch indexBits arms nop).lines target) ++ rest) =
      some (.ofFunctionBody (.dispatch indexBits arms nop), rest) := by
  have text : (FunctionBody.dispatch indexBits arms nop).lines target =
      ["    let mut index: u16 = 0;"] ++ indexBits.map IndexBit.line ++ ["    match index \x7b"] ++
        arms.map Arm.line ++ otherwiseLines nop target ++ ["    \x7d"] := by
    simp only [FunctionBody.lines, List.append_assoc]
    rfl
  have packed (behind : List Char) : (repeated indexBit).run
      (written (indexBits.map IndexBit.line) ++ ("    match index \x7b".toList ++ behind)) =
        some (indexBits.map id, "    match index \x7b".toList ++ behind) := by
    refine run_repeated_lines (fun entry _ rest => ?_) (run_bind_eq_none (run_literal_eq_none rfl))
    rw [← String.toList_append, run_indexBit]
    rfl
  have chosen (behind : List Char) : (repeated arm).run
      (written (arms.map Arm.line) ++ (written (otherwiseLines nop target) ++ behind)) =
        some (arms.map fun arm => (arm.index, .ofArmBody arm.body),
          written (otherwiseLines nop target) ++ behind) :=
    run_repeated_lines (fun entry member rest => run_arm (legible.1 entry member))
      (run_arm_eq_none nop target behind)
  rw [text, dispatch]
  simp only [written_append, written_cons, written_nil, List.append_assoc, List.nil_append,
    run_bind_line]
  rw [run_bind (packed _), run_bind_line, run_bind (chosen _),
    run_bind (run_otherwise legible.2 target), run_bind_line, List.map_id]
  rfl

theorem run_dispatch_eq_none {chars : List Char}
    (differs : "    let mut index: u16 = 0;".toList.isPrefixOf chars = false) :
    dispatch.run chars = none := by
  refine run_bind_eq_none ?_
  rw [line]
  exact run_bind_eq_none (run_literal_eq_none differs)

theorem run_direct {type : OpcodeType} (legible : Legible type) (target : String) :
    body.run (written ((FunctionBody.direct type).lines target) ++ rest) =
      some (.ofFunctionBody (.direct type), rest) := by
  have text : type.construct "DspInstruction" = "DspInstruction" ++ ("::" ++ type.ident ++ "(" ++
    type.ident ++ " " ++ braced type.fields ++ ")") := by
    simp only [← String.append_assoc]
    rfl
  have silent : (warning "    log::warn!(target: "
      ", \"unknown instruction opcode: \x7b:#06x\x7d\", instruction);").run ("    ".toList ++
        ((type.construct "DspInstruction").toList ++ ("\n".toList ++ rest))) = none := by
    rw [text, String.toList_append, List.append_assoc, warning]
    exact run_bind_eq_none (run_literal_eq_none rfl)
  have plain : dispatch.run ("    ".toList ++
      ((type.construct "DspInstruction").toList ++ ("\n".toList ++ rest))) = none := by
    rw [text, String.toList_append, List.append_assoc]
    exact run_dispatch_eq_none rfl
  simp only [FunctionBody.lines, written_cons, written_nil, List.append_assoc, List.nil_append,
    String.toList_append]
  rw [body, run_orElse_right plain, value, run_bind ((run_orElse_right silent).trans rfl),
    run_bind_literal, run_bind (run_construct legible _), run_bind_literal]
  rfl

theorem run_unknown {nop : OpcodeType} (isName : IsName nop.ident) (target : String) :
    body.run (written ((FunctionBody.unknown nop).lines target) ++ rest) =
      some (.ofFunctionBody (.unknown nop), rest) := by
  have text : (FunctionBody.unknown nop).lines target = [
      "    log::warn!(target: " ++ Text.quoted target ++
        ", \"unknown instruction opcode: \x7b:#06x\x7d\", instruction);",
      "    " ++ nop.defaultValue "DspInstruction"] := rfl
  have plain (behind : List Char) : dispatch.run
      (("    log::warn!(target: " ++ Text.quoted target ++
        ", \"unknown instruction opcode: \x7b:#06x\x7d\", instruction);").toList ++ behind) =
          none := by
    rw [String.toList_append, String.toList_append, List.append_assoc, List.append_assoc]
    exact run_dispatch_eq_none rfl
  rw [text, written_cons, written_cons, written_nil, List.append_nil, List.append_assoc,
    List.append_assoc, body, run_orElse_right (plain _), value,
    run_bind (run_orElse_left (run_warning ..)), String.toList_append, List.append_assoc,
    List.append_assoc, run_bind_literal, run_bind (run_default isName _), run_bind_literal]
  rfl

theorem run_body {content : FunctionBody} (legible : LegibleBody content) (target : String) :
    body.run (written (content.lines target) ++ rest) = some (.ofFunctionBody content, rest) := by
  cases content with
  | direct type => exact run_direct legible target
  | unknown nop => exact run_unknown legible target
  | dispatch indexBits arms nop => exact run_orElse_left (run_dispatch legible target)

/-- What the text says about a function. -/
def Function.ofDispatchFunction (function : DispatchFunction) : Function :=
  ⟨function.name, .ofFunctionBody function.body⟩

theorem Function.map_name_ofDispatchFunction (contents : List DispatchFunction) :
    (contents.map Function.ofDispatchFunction).map (·.name) = contents.map (·.name) :=
  List.map_map

/-- A function with a legal name, all of whose other names can be read. -/
structure LegibleFunction (function : DispatchFunction) : Prop where
  name : IsIdentifier function.name
  body : LegibleBody function.body

theorem run_function {content : DispatchFunction} (legible : LegibleFunction content)
    (target : String) :
    function.run (written (content.lines target) ++ rest) =
      some (.ofDispatchFunction content, rest) := by
  obtain ⟨name, isPublic, inside⟩ := content
  have text : (⟨name, isPublic, inside⟩ : DispatchFunction).lines target =
      ["#[allow(unused_variables, clippy::identity_op, clippy::match_single_binding)]",
        (if isPublic then "pub " else "") ++ "fn " ++ name ++
          "(instruction: u16, next_instruction: u16) -> DspInstruction \x7b"] ++
        inside.lines target ++ ["\x7d", ""] := rfl
  have opened (behind : List Char) : ((literal "pub " <|> pure ()) : Reader Unit).run
      ((if isPublic then "pub " else "").toList ++ ("fn ".toList ++ behind)) =
        some ((), "fn ".toList ++ behind) := by
    cases isPublic with
    | true => exact run_orElse_left (run_literal "pub " _)
    | false => exact run_orElse_right (run_literal_eq_none rfl)
  rw [text, function]
  simp only [written_append, written_cons, written_nil, List.append_assoc, List.nil_append,
    run_bind_line, String.toList_append]
  rw [run_bind (opened _), run_bind_literal, run_bind_name legible.name _ _ (by decide),
    run_bind_line, run_bind (run_body legible.body target), run_bind_line, run_bind_line]
  rfl

theorem run_helpers : helpers.run (written bitHelperLines ++ rest) = some ((), rest) := by
  simp only [bitHelperLines, written_cons, written_nil, List.append_assoc, List.nil_append,
    helpers, run_bind_line]
  exact run_line ""

theorem toList_join_lines (lines : List String) :
    (String.join (lines.map (· ++ "\n"))).toList = written lines := by
  rw [String.toList_join, List.flatMap_map, written]
  simp only [String.toList_append]

end Lines

/-- Lines that stand among others are written among them. -/
theorem written_isInfix {part whole : List String} (inside : part <:+: whole) :
    written part <:+: written whole := by
  obtain ⟨front, back, rfl⟩ := inside
  exact ⟨written front, written back, by rw [written_append, written_append]⟩

end Source

/-- The document is emitted as a text in which each of the parts stands. -/
def Emits (doc : Document) (options : Options) (parts : List String) : Prop :=
  ∃ text, (doc.emit options).value = .ok text ∧ ∀ part ∈ parts, part.toList <:+: text.toList

/-- The part of the text that defines the bit helpers. -/
def helperText : String := String.join (bitHelperLines.map (· ++ "\n"))

theorem toList_helperText : helperText.toList = Source.written bitHelperLines :=
  Source.toList_join_lines _

namespace Program

variable (program : Program)

theorem toList_text : program.text.toList = Source.written program.lines :=
  Source.toList_join_lines _

/-- The part of the text that defines the dispatch functions. -/
def functionText : String :=
  String.join
    ((program.functions.flatMap (DispatchFunction.lines program.logTarget)).map (· ++ "\n"))

/-- The parts of the text that decode main instructions: bit helpers and dispatch functions. -/
def dispatchText : String := helperText ++ program.functionText

theorem toList_functionText : program.functionText.toList =
    program.functions.flatMap fun content => Source.written (content.lines program.logTarget) := by
  rw [functionText, Source.toList_join_lines]
  exact List.flatMap_assoc

theorem helperText_isInfix : helperText.toList <:+: program.text.toList := by
  rw [toList_helperText, toList_text]
  exact Source.written_isInfix
    ⟨program.headerLines, _, by rw [lines]; simp only [List.append_assoc]; rfl⟩

theorem functionText_isInfix : program.functionText.toList <:+: program.text.toList := by
  rw [functionText, Source.toList_join_lines, toList_text]
  exact Source.written_isInfix ⟨_, entryLines program.extensionNop, rfl⟩

end Program

theorem Blueprint.emits {doc : Document} {blueprint : Blueprint}
    (planned : ofDocument doc = .ok blueprint) {options : Options} {parts : List String}
    (inside : ∀ part ∈ parts, part.toList <:+: (blueprint.program options).text.toList) :
    Emits doc options parts :=
  ⟨_, emit_of_planned planned options, inside⟩

namespace Source

/-- The functions that a program's text states are those of the program. -/
theorem functions?_dispatchText {program : Program}
    (legible : ∀ content ∈ program.functions, LegibleFunction content) :
    functions? program.dispatchText = some (program.functions.map Function.ofDispatchFunction) := by
  have read : (repeated function).run
      ((program.functions.flatMap fun content =>
        written (content.lines program.logTarget)) ++ []) =
          some (program.functions.map Function.ofDispatchFunction, []) := by
    refine run_repeated (fun content member rest => run_function (legible content member) _)
      (fun content _ empty => ?_) (run_bind_eq_none ?_)
    · simp [DispatchFunction.lines, written_cons] at empty
    · rw [line]
      exact run_bind_eq_none rfl
  rw [List.append_nil] at read
  rw [functions?, Program.dispatchText, String.toList_append, toList_helperText,
    Program.toList_functionText, run_bind run_helpers, read]

end Source

end DspIsa.Generated
