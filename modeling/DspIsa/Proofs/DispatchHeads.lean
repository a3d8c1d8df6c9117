import DspIsa.Proofs.DispatchText

/-! Which lines of the generated text open a function from two words to a main instruction. Those
are the first lines of the dispatch functions, and no other line of the text does so. -/
namespace DspIsa.Generated

namespace Source

/-- The first line of a function from two words to a main instruction. -/
def signature : Reader String := do
  literal "pub " <|> pure ()
  literal "fn "
  let name ← name
  literal "(instruction: u16, next_instruction: u16) -> DspInstruction \x7b"
  return name

/-- The name of the dispatch function that a line opens. -/
def opened? (line : String) : Option String :=
  match signature.run line.toList with
  | some (name, []) => some name
  | _ => none

theorem opened?_function {name : String} (identifier : IsIdentifier name) (isPublic : Bool) :
    opened? ((if isPublic then "pub " else "") ++ "fn " ++ name ++
      "(instruction: u16, next_instruction: u16) -> DspInstruction \x7b") = some name := by
  have visible (behind : List Char) : ((literal "pub " <|> pure ()) : Reader Unit).run
      ((if isPublic then "pub " else "").toList ++ ("fn ".toList ++ behind)) =
        some ((), "fn ".toList ++ behind) := by
    cases isPublic with
    | true => exact run_orElse_left (run_literal "pub " _)
    | false => exact run_orElse_right (run_literal_eq_none rfl)
  have read : signature.run (((if isPublic then "pub " else "") ++ "fn " ++ name ++
      "(instruction: u16, next_instruction: u16) -> DspInstruction \x7b").toList ++ []) =
        some (name, []) := by
    rw [signature]
    simp only [String.toList_append, List.append_assoc]
    rw [run_bind (visible _), run_bind_literal, run_bind_name identifier _ _ (by decide),
      run_bind_literal, run_pure]
  rw [List.append_nil] at read
  rw [opened?, read]

/-- A line that begins in another way opens no function. -/
theorem opened?_append {front : String} (back : String)
    (hidden : ∀ rest, "fn ".toList.isPrefixOf (front.toList ++ rest) = false)
    (shown : ∀ rest, "pub fn ".toList.isPrefixOf (front.toList ++ rest) = false) :
    opened? (front ++ back) = none := by
  have missed : signature.run (front ++ back).toList = none := by
    rw [String.toList_append, signature]
    cases visible : "pub ".toList.isPrefixOf (front.toList ++ back.toList) with
    | false =>
      rw [run_bind ((run_orElse_right (run_literal_eq_none visible)).trans rfl)]
      exact run_bind_eq_none (run_literal_eq_none (hidden _))
    | true =>
      obtain ⟨rest, same⟩ := List.isPrefixOf_iff_prefix.mp visible
      have other := shown back.toList
      rw [← same] at other ⊢
      rw [run_bind (run_orElse_left (run_literal "pub " rest))]
      refine run_bind_eq_none (run_literal_eq_none ?_)
      exact other
  rw [opened?, missed]

/-- None of the lines opens a dispatch function. -/
def Silent (lines : List String) : Prop := ∀ line ∈ lines, opened? line = none

instance (lines : List String) : Decidable (Silent lines) :=
  inferInstanceAs (Decidable (∀ line ∈ lines, _))

theorem Silent.append {front back : List String} (first : Silent front) (second : Silent back) :
    Silent (front ++ back) :=
  List.forall_mem_append.mpr ⟨first, second⟩

theorem Silent.cons {line : String} {lines : List String} (first : opened? line = none)
    (others : Silent lines) : Silent (line :: lines) :=
  List.forall_mem_cons.mpr ⟨first, others⟩

theorem Silent.map {Item : Type} {line : Item → String} (items : List Item)
    (each : ∀ item, opened? (line item) = none) : Silent (items.map line) := by
  intro text member
  obtain ⟨item, -, rfl⟩ := List.mem_map.mp member
  exact each item

/-- What begins with blanks opens no function. -/
theorem opened?_indented (text : String) : opened? ("    " ++ text) = none :=
  opened?_append text (fun _ => rfl) fun _ => rfl

theorem silent_headerLines (program : Program) : Silent program.headerLines := by
  refine .cons (by decide) (.cons ?_ (.cons ?_ (.cons ?_ (.cons (by decide) nofun))))
  · exact opened?_append _ (fun _ => rfl) fun _ => rfl
  · exact opened?_append _ (fun _ => rfl) fun _ => rfl
  · simp only [String.append_assoc]
    exact opened?_append _ (fun _ => rfl) fun _ => rfl

theorem silent_opcodeEnum (name : String) (types : List OpcodeType) :
    Silent (opcodeEnum name types) := by
  refine .append (.append (.cons (by decide) (.cons (by decide) (.cons ?_ nofun)))
    (.map types fun type => ?_)) (.cons (by decide) (.cons (by decide) nofun))
  · rw [opening, String.append_assoc]
    exact opened?_append _ (fun _ => rfl) fun _ => rfl
  · rw [String.append_assoc]
    exact opened?_indented _

theorem silent_valueEnum (name : String) (types : List OpcodeType) :
    Silent (valueEnum name types) := by
  refine .append (.append (.cons (by decide) (.cons (by decide) (.cons ?_ nofun)))
    (.map types fun type => ?_)) (.cons (by decide) (.cons (by decide) nofun))
  · rw [opening, String.append_assoc]
    exact opened?_append _ (fun _ => rfl) fun _ => rfl
  · simp only [String.append_assoc]
    exact opened?_indented _

theorem silent_declaration (type : OpcodeType) : Silent type.declaration := by
  rw [OpcodeType.declaration]
  refine .cons (by decide) (.cons (by decide) (.append ?_ (.cons (by decide) nofun)))
  split
  · refine .cons ?_ nofun
    rw [String.append_assoc]
    exact opened?_append _ (fun _ => rfl) fun _ => rfl
  · refine .cons ?_ (.append (.map type.fields fun field => ?_) (.cons (by decide) nofun))
    · rw [opening, String.append_assoc]
      exact opened?_append _ (fun _ => rfl) fun _ => rfl
    · rw [String.append_assoc]
      exact opened?_append _ (fun _ => rfl) fun _ => rfl

theorem silent_opcodeFunction (values opcodes : String) (types : List OpcodeType) :
    Silent (opcodeFunction values opcodes types) := by
  refine .append (.append (.cons ?_ (.cons (by decide) nofun)) (.map types fun type => ?_))
    (.cons (by decide) (.cons (by decide) nofun))
  · rw [opening, String.append_assoc]
    exact opened?_append _ (fun _ => rfl) fun _ => rfl
  · simp only [String.append_assoc]
    exact opened?_append _ (fun _ => rfl) fun _ => rfl

theorem silent_sizeFunction (types : List OpcodeType) : Silent (sizeFunction types) := by
  refine .append (.append (.cons (by decide) (.cons (by decide) (.cons (by decide) nofun)))
    (.map types fun type => ?_)) (.cons (by decide) (.cons (by decide) nofun))
  simp only [String.append_assoc]
  exact opened?_append _ (fun _ => rfl) fun _ => rfl

theorem silent_declarations (types : List OpcodeType) :
    Silent (types.flatMap OpcodeType.declaration) := by
  intro line member
  obtain ⟨type, -, listed⟩ := List.mem_flatMap.mp member
  exact silent_declaration type line listed

theorem silent_mainTypeLines (types : List OpcodeType) : Silent (mainTypeLines types) :=
  .append (.append (.append (.append (.append (.append (.append (silent_opcodeEnum _ types)
    (silent_declarations types)) (silent_valueEnum _ types)) (.cons (by decide) nofun))
    (silent_opcodeFunction _ _ types)) (.cons (by decide) nofun)) (silent_sizeFunction types))
    (.cons (by decide) (.cons (by decide) nofun))

theorem silent_extensionTypeLines (types : List OpcodeType) : Silent (extensionTypeLines types) :=
  .append (.append (.append (.append (.append (silent_opcodeEnum _ types)
    (silent_declarations types)) (silent_valueEnum _ types)) (.cons (by decide) nofun))
    (silent_opcodeFunction _ _ types)) (.cons (by decide) (.cons (by decide) nofun))

theorem silent_bitHelperLines : Silent bitHelperLines := by decide +kernel

theorem silent_decodedTypeLines : Silent decodedTypeLines := by decide +kernel

theorem silent_byteDispatch (dispatch : ByteDispatch) (target : String) (nop : OpcodeType) :
    Silent (dispatch.lines target nop) := by
  refine .append (.append (.append ?_ (.map _ fun arm => ?_)) ?_) (by decide)
  · decide +kernel
  · rw [ByteArm.line]
    simp only [String.append_assoc]
    exact opened?_append _ (fun _ => rfl) fun _ => rfl
  · split
    · refine .cons (by decide) (.cons ?_ (.cons ?_ (.cons (by decide) nofun)))
      · rw [String.append_assoc]
        exact opened?_append _ (fun _ => rfl) fun _ => rfl
      · exact opened?_append _ (fun _ => rfl) fun _ => rfl
    · nofun

theorem silent_entryLines (nop : OpcodeType) : Silent (entryLines nop) := by
  have field : opened? ("            extension: " ++ nop.defaultValue "ExtensionInstruction" ++
      ",") = none := by
    rw [String.append_assoc]
    exact opened?_append _ (fun _ => rfl) fun _ => rfl
  -- all other lines are the same for every no-op
  simp only [Silent, entryLines, List.forall_mem_cons, field, true_and]
  decide +kernel

theorem silent_armLines (arms : List Arm) : Silent (arms.map Arm.line) := by
  refine .map arms fun arm => ?_
  simp only [Arm.line, String.append_assoc]
  exact opened?_append _ (fun _ => rfl) fun _ => rfl

theorem silent_indexLines (entries : List IndexBit) : Silent (entries.map IndexBit.line) := by
  refine .map entries fun entry => ?_
  have text : entry.line = "    index |= ((instruction >> " ++ entry.bit.repr ++ ") & 0x1) << " ++
    entry.slotBit.repr ++ ";" := rfl
  rw [text]
  simp only [String.append_assoc]
  exact opened?_append _ (fun _ => rfl) fun _ => rfl

theorem silent_otherwiseLines (nop : OpcodeType) (target : String) :
    Silent (otherwiseLines nop target) := by
  refine .cons (by decide) (.cons ?_ (.cons ?_ (.cons (by decide) nofun)))
  · rw [String.append_assoc]
    exact opened?_append _ (fun _ => rfl) fun _ => rfl
  · exact opened?_append _ (fun _ => rfl) fun _ => rfl

theorem silent_body (body : FunctionBody) (target : String) : Silent (body.lines target) := by
  cases body with
  | direct type =>
    refine .cons ?_ nofun
    exact opened?_indented _
  | unknown nop =>
    refine .cons ?_ (.cons ?_ nofun)
    · rw [String.append_assoc]
      exact opened?_append _ (fun _ => rfl) fun _ => rfl
    · exact opened?_indented _
  | dispatch indexBits arms nop =>
    have text : (FunctionBody.dispatch indexBits arms nop).lines target =
        ["    let mut index: u16 = 0;"] ++ indexBits.map IndexBit.line ++
          ["    match index \x7b"] ++ arms.map Arm.line ++
            (otherwiseLines nop target ++ ["    \x7d"]) := rfl
    rw [text]
    exact .append (.append (.append (.append (by decide) (silent_indexLines indexBits)) (by decide))
      (silent_armLines arms)) (.append (silent_otherwiseLines nop target) (by decide))

theorem Silent.filterMap {lines : List String} (silent : Silent lines) :
    lines.filterMap opened? = [] :=
  List.filterMap_eq_nil_iff.mpr silent

/-- The lines of a function open that function and no other. -/
theorem filterMap_function {content : DispatchFunction} (identifier : IsIdentifier content.name)
    (target : String) : (content.lines target).filterMap opened? = [content.name] := by
  have opens := opened?_function identifier content.isPublic
  have closes : Silent (content.body.lines target ++ ["\x7d", ""]) :=
    (silent_body content.body target).append (by decide)
  have before : opened? allowFunctions = none := by decide
  rw [DispatchFunction.lines, List.append_assoc, List.filterMap_append, closes.filterMap,
    List.append_nil, List.filterMap_cons_none before, List.filterMap_cons_some opens,
    List.filterMap_nil]

end Source

/-- The lines of the generated text that open a dispatch function are those of the functions. -/
theorem Program.filterMap_opened (program : Program)
    (named : ∀ content ∈ program.functions, IsIdentifier content.name) :
    program.lines.filterMap Source.opened? = program.functions.map (·.name) := by
  have functions : (program.functions.flatMap (DispatchFunction.lines program.logTarget)).filterMap
      Source.opened? = program.functions.map (·.name) := by
    rw [List.filterMap_flatMap, List.flatMap_congr fun content member =>
      Source.filterMap_function (named content member) program.logTarget]
    exact List.flatMap_pure_eq_map _ _
  have before : Source.Silent (program.headerLines ++ bitHelperLines ++
      mainTypeLines program.mainTypes ++ extensionTypeLines program.extensionTypes ++
      decodedTypeLines ++ program.byteDispatch.lines program.logTarget program.extensionNop) :=
    .append (.append (.append (.append (.append (Source.silent_headerLines program)
      Source.silent_bitHelperLines) (Source.silent_mainTypeLines _))
      (Source.silent_extensionTypeLines _)) Source.silent_decodedTypeLines)
      (Source.silent_byteDispatch _ _ _)
  rw [Program.lines, List.filterMap_append, List.filterMap_append, before.filterMap, functions,
    (Source.silent_entryLines _).filterMap, List.nil_append, List.append_nil]

end DspIsa.Generated
