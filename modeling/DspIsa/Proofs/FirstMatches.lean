import DspIsa.Proofs.ByteOwners

/-! The table of extensions against the extensions themselves. A byte belongs to the first extension
that has its bits, and every other one that has them is rejected in favour of the first; the table
says so for all bytes in their order. It is what results when the bytes are gone through one by one,
and the extensions for each of them, and an extension takes what no other has taken before. -/
namespace DspIsa

namespace ExtensionTable

/-- The byte has the bits that the extension fixes. -/
def Fits (byte : Nat) (extension : Instruction) : Prop :=
  BitVec.ofNat 32 byte &&& extension.fixedMask = extension.fixedValue

/-- A table in which every byte belongs to the first extension that it fits, with a list of all that
came too late. -/
structure FirstMatch (extensions : List Instruction) (table : ExtensionTable) : Prop where
  owner : ∀ byte < 256, ∀ index, table.owner? byte = some index ↔
    (∃ extension, extensions[index]? = some extension ∧ Fits byte extension) ∧
      ∀ earlier < index, ∀ extension, extensions[earlier]? = some extension → ¬ Fits byte extension
  unowned : ∀ byte < 256, table.owner? byte = none ↔
    ∀ extension ∈ extensions, ¬ Fits byte extension
  conflict : ∀ conflict, conflict ∈ table.conflicts ↔
    conflict.byte < 256 ∧ table.owner? conflict.byte = some conflict.kept ∧
      conflict.rejected ≠ conflict.kept ∧
      ∃ extension, extensions[conflict.rejected]? = some extension ∧ Fits conflict.byte extension
  ordered : table.conflicts.Pairwise fun first second =>
    first.byte < second.byte ∨ first.byte = second.byte ∧ first.rejected < second.rejected
  complete : table.isComplete = true ↔ ∀ byte < 256, ∃ extension ∈ extensions, Fits byte extension

/-- A table while it is filled: the owners that are known, and the matches that came too late. -/
structure Filling where
  owners : Array (Option Nat)
  conflicts : List ExtensionConflict
  deriving DecidableEq, Repr

namespace Filling

/-- An extension that the byte fits takes it, unless another has it. -/
def visit (byte : Nat) (filling : Filling) (entry : Instruction × Nat) : Filling :=
  if isByteMatch byte entry.1 then
    match filling.owners[byte]?.join with
    | none => { filling with owners := filling.owners.setIfInBounds byte (some entry.2) }
    | some kept => { filling with conflicts := filling.conflicts ++ [⟨byte, kept, entry.2⟩] }
  else filling

/-- All bytes in their order, and for each of them all extensions in theirs. -/
def ofExtensions (extensions : List Instruction) : Filling :=
  (List.range 256).foldl (fun filling byte => extensions.zipIdx.foldl (visit byte) filling)
    ⟨Array.replicate 256 none, []⟩

end Filling

variable {extensions : List Instruction} {byte index : Nat}

theorem isByteMatch_iff {extension : Instruction} :
    isByteMatch byte extension = true ↔ Fits byte extension := beq_iff_eq

/-- The matches that come too late for a byte, when these are all its matches. -/
def rejections (byte : Nat) : List Nat → List ExtensionConflict
  | [] => []
  | kept :: later => later.map fun rejected => ⟨byte, kept, rejected⟩

theorem conflictsAt_eq (extensions : List Instruction) (byte : Nat) :
    conflictsAt extensions byte = rejections byte (matching extensions byte) := by
  rw [conflictsAt]
  cases matching extensions byte <;> rfl

namespace Filling

/-- The numbers of the entries that the byte fits. -/
def fitting (byte : Nat) (entries : List (Instruction × Nat)) : List Nat :=
  (entries.filter fun entry => isByteMatch byte entry.1).map Prod.snd

section

variable {owners : Array (Option Nat)} {conflicts : List ExtensionConflict}
  {entry : Instruction × Nat}

theorem fitting_cons_of_pos (fits : isByteMatch byte entry.1 = true)
    (entries : List (Instruction × Nat)) :
    fitting byte (entry :: entries) = entry.2 :: fitting byte entries := by
  simp [fitting, fits]

theorem fitting_cons_of_neg (misses : isByteMatch byte entry.1 = false)
    (entries : List (Instruction × Nat)) :
    fitting byte (entry :: entries) = fitting byte entries := by
  simp [fitting, misses]

theorem visit_of_misses (misses : isByteMatch byte entry.1 = false) (filling : Filling) :
    visit byte filling entry = filling := by
  simp [visit, misses]

theorem visit_of_free (fits : isByteMatch byte entry.1 = true)
    (free : owners[byte]? = some none) :
    visit byte ⟨owners, conflicts⟩ entry =
      ⟨owners.setIfInBounds byte (some entry.2), conflicts⟩ := by
  simp [visit, fits, free]

theorem visit_of_owned (fits : isByteMatch byte entry.1 = true) {kept : Nat}
    (owned : owners[byte]? = some (some kept)) :
    visit byte ⟨owners, conflicts⟩ entry =
      ⟨owners, conflicts ++ [⟨byte, kept, entry.2⟩]⟩ := by
  simp [visit, fits, owned]

/-- Once a byte has an owner, all others that it fits are rejected. -/
theorem foldl_visit_of_owned {kept : Nat} (owned : owners[byte]? = some (some kept))
    (entries : List (Instruction × Nat)) :
    entries.foldl (visit byte) ⟨owners, conflicts⟩ =
      ⟨owners, conflicts ++ rejections byte (kept :: fitting byte entries)⟩ := by
  induction entries generalizing conflicts with
  | nil => simp [rejections, fitting]
  | cons entry rest ih =>
    rw [List.foldl_cons]
    cases fits : isByteMatch byte entry.1 with
    | false => rw [visit_of_misses fits, ih, fitting_cons_of_neg fits]
    | true =>
      rw [visit_of_owned fits owned, ih, fitting_cons_of_pos fits, List.append_assoc]
      rfl

/-- What one byte adds: the first extension it fits is its owner, the others are rejected. -/
theorem foldl_visit_of_free (free : owners[byte]? = some none)
    (entries : List (Instruction × Nat)) :
    entries.foldl (visit byte) ⟨owners, conflicts⟩ =
      ⟨owners.setIfInBounds byte (fitting byte entries).head?,
        conflicts ++ rejections byte (fitting byte entries)⟩ := by
  induction entries with
  | nil =>
    have same : owners.setIfInBounds byte none = owners := by
      apply Array.ext_getElem?
      intro place
      by_cases here : byte = place
      · obtain ⟨inside, -⟩ := Array.getElem?_eq_some_iff.mp free
        rw [← here, free, Array.getElem?_setIfInBounds_self_of_lt inside]
      · rw [Array.getElem?_setIfInBounds_ne here]
    simp [fitting, rejections, same]
  | cons entry rest ih =>
    rw [List.foldl_cons]
    cases fits : isByteMatch byte entry.1 with
    | false => rw [visit_of_misses fits, ih, fitting_cons_of_neg fits]
    | true =>
      obtain ⟨inside, -⟩ := Array.getElem?_eq_some_iff.mp free
      have owned := Array.getElem?_setIfInBounds_self_of_lt (a := some entry.2) inside
      rw [visit_of_free fits free, fitting_cons_of_pos fits, List.head?_cons,
        foldl_visit_of_owned owned]

end

/-- The owners when the bytes below a number have been gone through. -/
def ownersBelow (extensions : List Instruction) (bound : Nat) : Array (Option Nat) :=
  (Array.range 256).map fun byte =>
    if byte < bound then (matching extensions byte).head? else none

theorem getElem?_ownersBelow (extensions : List Instruction) (bound place : Nat) :
    (ownersBelow extensions bound)[place]? =
      if place < 256 then some (if place < bound then (matching extensions place).head? else none)
      else none := by
  rw [ownersBelow, Array.getElem?_map, Array.getElem?_range]
  split <;> rfl

/-- One more byte has its owner. -/
theorem setIfInBounds_ownersBelow (extensions : List Instruction) (bound : Nat) :
    (ownersBelow extensions bound).setIfInBounds bound (matching extensions bound).head? =
      ownersBelow extensions (bound + 1) := by
  have size : (ownersBelow extensions bound).size = 256 := by simp [ownersBelow]
  apply Array.ext_getElem?
  intro place
  rw [Array.getElem?_setIfInBounds, getElem?_ownersBelow, getElem?_ownersBelow, size]
  by_cases here : bound = place
  · rw [if_pos here, here, if_pos (Nat.lt_succ_self place)]
  · have below : place < bound ↔ place < bound + 1 := by omega
    simp only [here, below, ↓reduceIte]

/-- The bytes below a number have their owners, and have added their conflicts in order. -/
theorem foldl_range_eq (extensions : List Instruction) {bound : Nat} (inside : bound ≤ 256) :
    (List.range bound).foldl
        (fun filling byte => extensions.zipIdx.foldl (visit byte) filling)
        ⟨Array.replicate 256 none, []⟩ =
      ⟨ownersBelow extensions bound, (List.range bound).flatMap (conflictsAt extensions)⟩ := by
  induction bound with
  | zero =>
    have empty : ownersBelow extensions 0 = Array.replicate 256 none := by
      apply Array.ext_getElem?
      intro place
      rw [getElem?_ownersBelow, Array.getElem?_replicate]
      rfl
    rw [empty]
    rfl
  | succ bound ih =>
    have free : (ownersBelow extensions bound)[bound]? = some none := by
      rw [getElem?_ownersBelow, if_pos (Nat.lt_of_succ_le inside), if_neg (Nat.lt_irrefl bound)]
    rw [List.range_succ, List.foldl_append, ih (by omega), List.foldl_cons, List.foldl_nil,
      foldl_visit_of_free free, List.flatMap_append, List.flatMap_singleton, conflictsAt_eq]
    exact congrArg (Filling.mk · _) (setIfInBounds_ownersBelow extensions bound)

/-- Filling the table byte by byte gives what the table holds. -/
theorem ofExtensions_eq (extensions : List Instruction) :
    ofExtensions extensions = ⟨(build extensions).owners, (build extensions).conflicts⟩ := by
  rw [ofExtensions, foldl_range_eq extensions (Nat.le_refl 256)]
  have owners : ownersBelow extensions 256 = (build extensions).owners := by
    apply Array.map_congr_left
    intro byte member
    exact if_pos (Array.mem_range.mp member)
  rw [owners]
  rfl

end Filling

theorem mem_matching_iff : index ∈ matching extensions byte ↔
    ∃ extension, extensions[index]? = some extension ∧ Fits byte extension := by
  simp only [mem_matching, isByteMatch_iff]

/-- A byte belongs to the first extension that it fits. -/
theorem owner?_build_iff (inside : byte < 256) : (build extensions).owner? byte = some index ↔
    (∃ extension, extensions[index]? = some extension ∧ Fits byte extension) ∧
      ∀ earlier < index, ∀ extension, extensions[earlier]? = some extension →
        ¬ Fits byte extension := by
  constructor
  · intro owned
    refine ⟨?_, fun earlier before extension found fits => ?_⟩
    · rw [owner?_build inside] at owned
      exact mem_matching_iff.mp (List.mem_of_mem_head? owned)
    · have missed := isByteMatch_eq_false_of_lt owned before found
      rw [isByteMatch_iff.mpr fits] at missed
      cases missed
  · rintro ⟨fits, first⟩
    have matched := mem_matching_iff.mpr fits
    obtain ⟨owner, owned, same | ⟨before, -⟩⟩ := eq_owner_or_conflict inside matched
    · rw [same, owned]
    · obtain ⟨-, extension, found, taken⟩ := exists_of_owner? owned
      exact absurd (isByteMatch_iff.mp taken) (first owner before extension found)

theorem owner?_build_eq_none_iff (inside : byte < 256) :
    (build extensions).owner? byte = none ↔ ∀ extension ∈ extensions, ¬ Fits byte extension := by
  rw [owner?_build inside, List.head?_eq_none_iff, List.eq_nil_iff_forall_not_mem]
  simp only [mem_matching_iff]
  constructor
  · intro none extension member fits
    obtain ⟨index, found⟩ := List.getElem?_of_mem member
    exact none index ⟨extension, found, fits⟩
  · rintro none index ⟨extension, found, fits⟩
    exact none extension (List.mem_of_getElem? found) fits

theorem mem_rejections_iff {matched : List Nat} (upwards : matched.Pairwise (· < ·))
    {conflict : ExtensionConflict} :
    conflict ∈ rejections byte matched ↔ conflict.byte = byte ∧
      matched.head? = some conflict.kept ∧ conflict.rejected ≠ conflict.kept ∧
      conflict.rejected ∈ matched := by
  obtain ⟨own, kept, rejected⟩ := conflict
  cases matched with
  | nil => simp [rejections]
  | cons first later =>
    have above (index : Nat) (behind : index ∈ later) : index ≠ first :=
      (List.rel_of_pairwise_cons upwards behind).ne'
    simp only [rejections, List.mem_map, ExtensionConflict.mk.injEq, List.head?_cons,
      Option.some.injEq, List.mem_cons]
    constructor
    · rintro ⟨index, behind, rfl, rfl, rfl⟩
      exact ⟨rfl, rfl, above index behind, .inr behind⟩
    · rintro ⟨rfl, rfl, other, same | behind⟩
      · exact absurd same other
      · exact ⟨rejected, behind, rfl, rfl, rfl⟩

theorem mem_conflicts_build_iff {conflict : ExtensionConflict} :
    conflict ∈ (build extensions).conflicts ↔ conflict.byte < 256 ∧
      (build extensions).owner? conflict.byte = some conflict.kept ∧
      conflict.rejected ≠ conflict.kept ∧
      ∃ extension, extensions[conflict.rejected]? = some extension ∧
        Fits conflict.byte extension := by
  simp only [build, List.mem_flatMap, List.mem_range, conflictsAt_eq,
    mem_rejections_iff (pairwise_matching extensions _), mem_matching_iff]
  constructor
  · rintro ⟨byte, inside, rfl, kept, rest⟩
    exact ⟨inside, (owner?_build inside).trans kept, rest⟩
  · rintro ⟨inside, kept, rest⟩
    exact ⟨_, inside, rfl, (owner?_build inside).symm.trans kept, rest⟩

/-- Conflicts come in the order of their bytes, and those of one byte in spec order. -/
theorem pairwise_conflicts_build (extensions : List Instruction) :
    (build extensions).conflicts.Pairwise fun first second =>
      first.byte < second.byte ∨ first.byte = second.byte ∧ first.rejected < second.rejected := by
  have ofByte (byte : Nat) {conflict : ExtensionConflict}
      (member : conflict ∈ conflictsAt extensions byte) : conflict.byte = byte := by
    rw [conflictsAt_eq] at member
    exact ((mem_rejections_iff (pairwise_matching extensions byte)).mp member).1
  refine List.pairwise_flatMap.mpr ⟨fun byte _ => ?_, ?_⟩
  · have upwards := pairwise_matching extensions byte
    rw [conflictsAt_eq]
    cases listed : matching extensions byte with
    | nil => exact .nil
    | cons kept later =>
      rw [listed] at upwards
      have behind := (List.pairwise_cons.mp upwards).2
      exact List.pairwise_map.mpr (behind.imp fun below => .inr ⟨rfl, below⟩)
  · refine List.pairwise_lt_range.imp fun {lower higher} below first low second high => .inl ?_
    rw [ofByte lower low, ofByte higher high]
    exact below

theorem firstMatch (extensions : List Instruction) :
    (build extensions).FirstMatch extensions where
  owner _ inside _ := owner?_build_iff inside
  unowned _ inside := owner?_build_eq_none_iff inside
  conflict _ := mem_conflicts_build_iff
  ordered := pairwise_conflicts_build extensions
  complete := by
    rw [isComplete_build]
    refine forall₂_congr fun byte inside => ?_
    rw [Option.isSome_iff_ne_none, Ne, owner?_build_eq_none_iff inside]
    simp

/-- Extensions at the end take nothing away. -/
theorem owner?_build_append (owned : (build extensions).owner? byte = some index)
    (more : List Instruction) : (build (extensions ++ more)).owner? byte = some index := by
  have inside := (exists_of_owner? owned).1
  obtain ⟨⟨extension, found, fits⟩, first⟩ := (owner?_build_iff inside).mp owned
  have kept {earlier : Nat} (before : earlier ≤ index) :
      (extensions ++ more)[earlier]? = extensions[earlier]? := by
    have listed := (List.getElem?_eq_some_iff.mp found).1
    exact List.getElem?_append_left (by omega)
  refine (owner?_build_iff inside).mpr ⟨⟨extension, ?_, fits⟩, fun earlier before other found => ?_⟩
  · rw [kept (Nat.le_refl index), found]
  · rw [kept before.le] at found
    exact first earlier before other found

/-- For all extensions, the table is what filling it byte by byte gives. Every byte belongs to the
first extension that it fits, all others that it fits are listed as conflicts, and extensions at the
end change no owner. -/
theorem build_firstMatch (extensions : List Instruction) :
    Filling.ofExtensions extensions =
        ⟨(build extensions).owners, (build extensions).conflicts⟩ ∧
      (build extensions).FirstMatch extensions ∧
      ∀ more byte index, (build extensions).owner? byte = some index →
        (build (extensions ++ more)).owner? byte = some index :=
  ⟨Filling.ofExtensions_eq extensions, firstMatch extensions, fun more _ _ owned =>
    owner?_build_append owned more⟩

/-- Three extensions, the second inside the third and the third inside the first. -/
def nestedExtensions : List Instruction :=
  [⟨"MV_D_S", "MV", [⟨0, 1, 's'⟩, ⟨2, 3, 'd'⟩], 0xF0#32, 0x10#32, .bits8,
      ⟨"nested", ⟨1, 1⟩, ⟨1, 19⟩⟩⟩,
    ⟨"MVZ", "MVZ", [], 0xFF#32, 0x10#32, .bits8, ⟨"nested", ⟨2, 1⟩, ⟨2, 16⟩⟩⟩,
    ⟨"MVL_S", "MVL", [⟨0, 0, 's'⟩], 0xFE#32, 0x10#32, .bits8, ⟨"nested", ⟨3, 1⟩, ⟨3, 18⟩⟩⟩]

theorem build_firstMatch_nested :
    (build (nestedExtensions.take 1)).owner? 0x10 = some 0 ∧
      (build nestedExtensions).owner? 0x10 = some 0 ∧
      (build nestedExtensions).conflicts = [⟨0x10, 0, 1⟩, ⟨0x10, 0, 2⟩, ⟨0x11, 0, 2⟩] ∧
      (Filling.ofExtensions nestedExtensions).conflicts =
        [⟨0x10, 0, 1⟩, ⟨0x10, 0, 2⟩, ⟨0x11, 0, 2⟩] := by
  obtain ⟨-, -, kept⟩ := build_firstMatch (nestedExtensions.take 1)
  obtain ⟨filled, -, -⟩ := build_firstMatch nestedExtensions
  have alone : (build (nestedExtensions.take 1)).owner? 0x10 = some 0 := by decide +kernel
  have conflicts : (build nestedExtensions).conflicts =
      [⟨0x10, 0, 1⟩, ⟨0x10, 0, 2⟩, ⟨0x11, 0, 2⟩] := by decide +kernel
  exact ⟨alone, kept (nestedExtensions.drop 1) 0x10 0 alone, conflicts, by rw [filled, conflicts]⟩

end ExtensionTable

end DspIsa
