/-
Module: ChipEight.Listing
Purpose: Program images as listings. The bytes are taken two at a time, first byte high, and every
  word gets a row with its address and, where the word is an instruction, the instruction. A last
  byte without a partner has no row. Addresses have sixteen bits and wrap.
Main exports: Listing.Row, Listing.words, Listing.disassemble, Listing.Row.line
-/
import ChipEight.Instruction.Encoding
import ChipEight.Instruction.Mnemonic

namespace ChipEight

/-- The word of two bytes, the high byte first. -/
def bigEndian (high low : UInt8) : UInt16 :=
  UInt16.ofNat (high.toNat * 0x100 + low.toNat)

namespace Listing

/-- One row of a listing. -/
structure Row where
  address : UInt16
  word : UInt16
  instruction? : Option Instruction
deriving DecidableEq, Repr

/-- The whole words of a byte string. -/
def words : List UInt8 → List UInt16
  | high :: low :: rest => bigEndian high low :: words rest
  | _ => []

/-- The rows of words that stand at `address` and after it. -/
def rows (address : UInt16) : List UInt16 → List Row
  | [] => []
  | w :: rest => ⟨address, w, Instruction.decode w⟩ :: rows (address + 2) rest

/-- The listing of a program image that stands at `base`. -/
def disassemble (image : List UInt8) (base : UInt16) : List Row :=
  rows base (words image)

/-- What a row says of its word: the instruction, or the bare word as data. -/
def Row.text (row : Row) : String :=
  match row.instruction? with
  | some i => i.mnemonic
  | none => "DW 0x" ++ Numeral.hex 4 row.word.toNat

/-- A printed row: address, word and what the word says. -/
def Row.line (row : Row) : String :=
  Numeral.hex 3 row.address.toNat ++ ": " ++ Numeral.hex 4 row.word.toNat ++ "  " ++ row.text

end Listing

end ChipEight
