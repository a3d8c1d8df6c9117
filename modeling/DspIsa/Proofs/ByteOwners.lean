import DspIsa.Proofs.Decoding

/-! Which extension owns a byte. The table and the decoder speak of the first extension that
matches, and a byte is covered when there is one. -/
namespace DspIsa

namespace ExtensionTable

variable {extensions : List Instruction} {byte index : Nat}

theorem owner?_build (inside : byte < 256) :
    (build extensions).owner? byte = (matching extensions byte).head? := by
  simp [owner?, build, inside]

theorem owner?_build_of_le (outside : 256 ≤ byte) : (build extensions).owner? byte = none := by
  simp [owner?, build, Nat.not_lt.mpr outside]

theorem mem_matching : index ∈ matching extensions byte ↔
    ∃ extension, extensions[index]? = some extension ∧ isByteMatch byte extension = true := by
  simp only [matching, List.mem_map, List.mem_filter]
  constructor
  · rintro ⟨⟨extension, place⟩, ⟨listed, matched⟩, rfl⟩
    exact ⟨extension, List.mk_mem_zipIdx_iff_getElem?.mp listed, matched⟩
  · rintro ⟨extension, found, matched⟩
    exact ⟨(extension, index), ⟨List.mk_mem_zipIdx_iff_getElem?.mpr found, matched⟩, rfl⟩

/-- The owner of a byte is one of the extensions, and it matches the byte. -/
theorem exists_of_owner? (owned : (build extensions).owner? byte = some index) :
    byte < 256 ∧ ∃ extension, extensions[index]? = some extension ∧
      isByteMatch byte extension = true := by
  by_cases inside : byte < 256
  · rw [owner?_build inside] at owned
    exact ⟨inside, mem_matching.mp (List.mem_of_mem_head? owned)⟩
  · rw [owner?_build_of_le (Nat.le_of_not_lt inside)] at owned
    cases owned

/-- The extensions that match a byte are listed upwards. -/
theorem pairwise_matching (extensions : List Instruction) (byte : Nat) :
    (matching extensions byte).Pairwise (· < ·) := by
  have upwards : (extensions.zipIdx.map Prod.snd).Pairwise (· < ·) := by
    rw [List.zipIdx_map_snd]
    exact List.pairwise_lt_range'
  exact upwards.sublist (List.filter_sublist.map Prod.snd)

/-- What matches a byte is its owner or stands in the table as a conflict with the owner. -/
theorem eq_owner_or_conflict (inside : byte < 256) (matched : index ∈ matching extensions byte) :
    ∃ owner, (build extensions).owner? byte = some owner ∧
      (index = owner ∨
        owner < index ∧ ⟨byte, owner, index⟩ ∈ (build extensions).conflicts) := by
  rw [owner?_build inside]
  have upwards := pairwise_matching extensions byte
  cases listed : matching extensions byte with
  | nil =>
    rw [listed] at matched
    cases matched
  | cons owner later =>
    refine ⟨owner, rfl, ?_⟩
    rw [listed] at matched upwards
    rcases List.mem_cons.mp matched with same | behind
    · exact .inl same
    · refine .inr ⟨List.rel_of_pairwise_cons upwards behind, ?_⟩
      refine List.mem_flatMap.mpr ⟨byte, List.mem_range.mpr inside, ?_⟩
      rw [conflictsAt, listed]
      exact List.mem_map.mpr ⟨index, behind, rfl⟩

/-- No extension before the owner matches the byte. -/
theorem isByteMatch_eq_false_of_lt (owned : (build extensions).owner? byte = some index)
    {earlier : Nat} (before : earlier < index) {extension : Instruction}
    (found : extensions[earlier]? = some extension) : isByteMatch byte extension = false := by
  rw [owner?_build (exists_of_owner? owned).1] at owned
  obtain ⟨later, listed⟩ := List.head?_eq_some_iff.mp owned
  have upwards := pairwise_matching extensions byte
  rw [listed] at upwards
  rw [← Bool.not_eq_true]
  intro matched
  have member := mem_matching.mpr ⟨extension, found, matched⟩
  rw [listed] at member
  rcases List.mem_cons.mp member with same | behind
  · exact Nat.lt_irrefl _ (same ▸ before)
  · exact Nat.lt_asymm before (List.rel_of_pairwise_cons upwards behind)

variable {table : ExtensionTable}

theorem mem_covered :
    (byte, index) ∈ table.covered ↔ byte < 256 ∧ table.owner? byte = some index := by
  simp only [covered, List.mem_filterMap, List.mem_range, Option.map_eq_some_iff, Prod.mk.injEq]
  constructor
  · rintro ⟨_, inside, _, owned, rfl, rfl⟩
    exact ⟨inside, owned⟩
  · rintro ⟨inside, owned⟩
    exact ⟨byte, inside, index, owned, rfl, rfl⟩

/-- The covered bytes are listed upwards. -/
theorem pairwise_covered (table : ExtensionTable) :
    table.covered.Pairwise fun first second => first.1 < second.1 := by
  rw [covered, List.pairwise_filterMap]
  refine List.pairwise_lt_range.imp fun {first second} below entry found other later => ?_
  obtain ⟨_, -, rfl⟩ := Option.map_eq_some_iff.mp found
  obtain ⟨_, -, rfl⟩ := Option.map_eq_some_iff.mp later
  exact below

theorem isComplete_build : (build extensions).isComplete = true ↔
    ∀ byte < 256, ((build extensions).owner? byte).isSome = true := by
  have owners : (build extensions).owners.toList =
      (List.range 256).map fun byte => (matching extensions byte).head? := by
    simp [build]
  rw [isComplete, ← Array.all_toList, owners, List.all_map, List.all_eq_true]
  simp only [List.mem_range, Function.comp_apply]
  exact forall₂_congr fun byte inside => by rw [owner?_build inside]

end ExtensionTable

/-- The low byte of a word is what an extension is matched against. -/
theorem Instruction.isMatch_eq_isByteMatch {extension : Instruction}
    (byte : extension.width = .bits8) (word second : Word) :
    extension.isMatch word second =
      ExtensionTable.isByteMatch (word &&& 0xFF#16).toNat extension := by
  rw [isMatch, codeOf, byte, ExtensionTable.isByteMatch]
  dsimp only
  rw [BitVec.ofNat_toNat]

namespace Decoder

variable {doc : Document} {decoder : Decoder} {word : Word}

/-- A word whose low byte has an owner decodes to that extension. -/
theorem decodeExtension_of_owner? (made : ofDocument doc = .ok decoder) {index : Nat}
    (owned : (ExtensionTable.build doc.extensions).owner? (word &&& 0xFF#16).toNat = some index) :
    ∃ extension layout, doc.extensions[index]? = some extension ∧
      Layout.ofInstruction extension = .ok layout ∧
      decoder.decodeExtension word = layout.read word 0#16 := by
  obtain ⟨-, extensions, -, table, -, -⟩ := ofDocument_eq_ok made
  obtain ⟨-, extension, found, -⟩ := ExtensionTable.exists_of_owner? owned
  obtain ⟨layout, listed, laidOut⟩ := exists_getElem?_of_mapM extensions found
  refine ⟨extension, layout, found, laidOut, ?_⟩
  rw [decodeExtension, table, owned, Option.bind_some, listed]

theorem decodeExtension_of_owner?_eq_none (made : ofDocument doc = .ok decoder)
    (free : (ExtensionTable.build doc.extensions).owner? (word &&& 0xFF#16).toNat = none) :
    decoder.decodeExtension word = .fallback decoder.extensionNop := by
  obtain ⟨-, -, -, table, -, -⟩ := ofDocument_eq_ok made
  rw [decodeExtension, table, free, Option.bind_none]

end Decoder

end DspIsa
