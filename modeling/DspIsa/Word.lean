/-! Instruction words and the bit operations that tables, decoding and generation share.
`gather` packs the bits a mask selects into a slot number; `scatter` spreads them back. -/
namespace DspIsa

/-- One unit of the instruction stream. -/
abbrev Word := BitVec 16

/-- A whole encoding, wide enough for an instruction of two words. -/
abbrev Code := BitVec 32

namespace Bits

/-- The `width` lowest bits; every width from 32 on gives all of them. -/
def lowMask (width : Nat) : Code :=
  if 32 ≤ width then BitVec.allOnes 32 else (1#32 <<< width) - 1#32

/-- The bits `low..=high`. -/
def rangeMask (low high : Nat) : Code := lowMask (high - low + 1) <<< low

/-- The positions of the bits set in a mask, lowest first. -/
def setBits {w : Nat} (mask : BitVec w) : List Nat :=
  (List.range w).filter fun bit => mask.getLsbD bit

/-- The bits of `value` at the given positions as a number, the first position lowest. -/
def gatherAt {w : Nat} (value : BitVec w) (positions : List Nat) : Nat :=
  positions.foldr (fun bit rest => 2 * rest + (value.getLsbD bit).toNat) 0

/-- The bits of `value` that `mask` selects, packed without gaps. -/
def gather {w : Nat} (value mask : BitVec w) : Nat := gatherAt value (setBits mask)

/-- The binary digits of `packed`, lowest first, moved to the given positions. -/
def scatterAt (w : Nat) : List Nat → Nat → BitVec w
  | [], _ => 0#w
  | bit :: rest, packed =>
    (if packed % 2 = 1 then BitVec.twoPow w bit else 0#w) ||| scatterAt w rest (packed / 2)

/-- Spreads the low bits of `packed` over the positions that `mask` selects. -/
def scatter {w : Nat} (packed : Nat) (mask : BitVec w) : BitVec w :=
  scatterAt w (setBits mask) packed

/-- The bits `low..=high` of a code, moved down to bit zero. -/
def extract (code : Code) (low high : Nat) : Code := (code &&& rangeMask low high) >>> low

end Bits

end DspIsa
