import DspIsa.ByteOrder
import DspIsa.Decoder

/-! Disassembly of a memory image. Lines follow each other without a gap; a two-word instruction
whose second word is missing ends the listing. -/
namespace DspIsa

/-- A word address; addresses wrap around. -/
abbrev Address := BitVec 64

structure ListingLine where
  address : Address
  words : List Word
  text : String
  isFallback : Bool
  deriving DecidableEq, Repr

/-- An instruction that the end of the image cuts in two. -/
structure Truncation where
  address : Address
  name : String
  deriving DecidableEq, Repr

structure Listing where
  lines : List ListingLine
  truncation : Option Truncation
  deriving DecidableEq, Repr

namespace ListingLine

def render (line : ListingLine) : String :=
  let words := String.join (line.words.map fun word => " " ++ Text.hex 4 word.toNat)
  let gap := if line.words.length = 1 then "     " else ""
  Text.hex 4 line.address.toNat ++ ":" ++ words ++ gap ++ "  " ++ line.text

/-- What is logged for a line: a word that no instruction matches. -/
def records (line : ListingLine) : List LogRecord :=
  if line.isFallback then
    let address := Text.hex 4 line.address.toNat
    let word := Text.markedHex 4 (line.words.headD 0#16).toNat
    [⟨.debug, .decoder, s!"{address}: no instruction matches {word}"⟩]
  else []

end ListingLine

def Truncation.record (cut : Truncation) : LogRecord :=
  let address := Text.hex 4 cut.address.toNat
  ⟨.debug, .decoder, s!"{address}: '{cut.name}' is truncated; stopping"⟩

namespace Listing

def cons (line : ListingLine) (listing : Listing) : Listing :=
  { listing with lines := line :: listing.lines }

def unknownCount (listing : Listing) : Nat :=
  (listing.lines.filter fun line => line.isFallback).length

/-- What is logged while the listing is made. -/
def records (listing : Listing) : List LogRecord :=
  listing.lines.flatMap ListingLine.records ++ (listing.truncation.map Truncation.record).toList

end Listing

def Decoded.render (decoded : Decoded) : String :=
  if decoded.hasExtension then decoded.main.render ++ " : " ++ decoded.extension.render
  else decoded.main.render

namespace Decoder

/-- The listing of a word list that starts at an address. Each instruction is decoded with the
word behind it, or with zero at the end. -/
def listWords (decoder : Decoder) (address : Address) : List Word → Listing
  | [] => ⟨[], none⟩
  | first :: rest =>
    let decoded := decoder.decode first (rest.headD 0#16)
    let line (words : List Word) : ListingLine :=
      ⟨address, words, decoded.render, decoded.main.isFallback⟩
    if decoded.main.wordCount = 2 then
      match rest with
      | [] => ⟨[], some ⟨address, decoded.main.name⟩⟩
      | second :: rest => (decoder.listWords (address + 2#64) rest).cons (line [first, second])
    else (decoder.listWords (address + 1#64) rest).cons (line [first])

def disassemble (decoder : Decoder) (order : ByteOrder) (base : Address) (image : List UInt8) :
    Listing :=
  decoder.listWords base (order.words image)

end Decoder

end DspIsa
