/-
Module: ChipEight.Instruction.Encoding
Purpose: Instructions as sixteen bit words. A word is read as four nibbles: the first names the
  family, and the other three hold operands or tell the members of a family apart. `encode` writes
  the word of an instruction, `decode` reads a word and gives nothing where the word is assigned to
  no instruction.
Main exports: Instruction.encode, Instruction.decode
-/
import ChipEight.Instruction.Basic

namespace ChipEight

namespace Operator

/-- The last nibble of an instruction of the family `8XY_`. -/
def code : Operator → Nat
  | .copy => 0x0
  | .or => 0x1
  | .and => 0x2
  | .xor => 0x3
  | .add => 0x4
  | .sub => 0x5
  | .shiftRight => 0x6
  | .subFrom => 0x7
  | .shiftLeft => 0xE

/-- The operator that the last nibble of a word of the family `8XY_` names. -/
def ofCode? : Nat → Option Operator
  | 0x0 => some .copy
  | 0x1 => some .or
  | 0x2 => some .and
  | 0x3 => some .xor
  | 0x4 => some .add
  | 0x5 => some .sub
  | 0x6 => some .shiftRight
  | 0x7 => some .subFrom
  | 0xE => some .shiftLeft
  | _ => none

end Operator

namespace Instruction

/-- The word with family `f` and the twelve bits `operands` after it. -/
def word (f operands : Nat) : UInt16 :=
  UInt16.ofNat (f * 0x1000 + operands)

/-- The word that stands for an instruction in memory. -/
def encode : Instruction → UInt16
  | .clearScreen => word 0x0 0x0E0
  | .ret => word 0x0 0x0EE
  | .jump addr => word 0x1 addr
  | .call addr => word 0x2 addr
  | .skipIf (.equalsByte x nn) => word 0x3 (x * 0x100 + nn.toNat)
  | .skipIf (.differsFromByte x nn) => word 0x4 (x * 0x100 + nn.toNat)
  | .skipIf (.equals x y) => word 0x5 (x * 0x100 + y * 0x10)
  | .loadByte x nn => word 0x6 (x * 0x100 + nn.toNat)
  | .addByte x nn => word 0x7 (x * 0x100 + nn.toNat)
  | .combine op x y => word 0x8 (x * 0x100 + y * 0x10 + op.code)
  | .skipIf (.differs x y) => word 0x9 (x * 0x100 + y * 0x10)
  | .loadIndex addr => word 0xA addr
  | .jumpOffset addr => word 0xB addr
  | .random x nn => word 0xC (x * 0x100 + nn.toNat)
  | .draw x y n => word 0xD (x * 0x100 + y * 0x10 + n)
  | .skipIf (.keyDown x) => word 0xE (x * 0x100 + 0x9E)
  | .skipIf (.keyUp x) => word 0xE (x * 0x100 + 0xA1)
  | .loadDelay x => word 0xF (x * 0x100 + 0x07)
  | .awaitKey x => word 0xF (x * 0x100 + 0x0A)
  | .setDelay x => word 0xF (x * 0x100 + 0x15)
  | .setSound x => word 0xF (x * 0x100 + 0x18)
  | .addIndex x => word 0xF (x * 0x100 + 0x1E)
  | .loadGlyph x => word 0xF (x * 0x100 + 0x29)
  | .storeDecimal x => word 0xF (x * 0x100 + 0x33)
  | .storeRegisters x => word 0xF (x * 0x100 + 0x55)
  | .loadRegisters x => word 0xF (x * 0x100 + 0x65)

/-- The members of the family `0___`, told apart by all twelve bits. -/
def systemMember? : Nat → Option Instruction
  | 0x0E0 => some .clearScreen
  | 0x0EE => some .ret
  | _ => none

/-- The members of the family `EX__`, told apart by the low byte. -/
def keyMember? (x : Nibble) : Nat → Option Instruction
  | 0x9E => some (.skipIf (.keyDown x))
  | 0xA1 => some (.skipIf (.keyUp x))
  | _ => none

/-- The members of the family `FX__`, told apart by the low byte. -/
def deviceMember? (x : Nibble) : Nat → Option Instruction
  | 0x07 => some (.loadDelay x)
  | 0x0A => some (.awaitKey x)
  | 0x15 => some (.setDelay x)
  | 0x18 => some (.setSound x)
  | 0x1E => some (.addIndex x)
  | 0x29 => some (.loadGlyph x)
  | 0x33 => some (.storeDecimal x)
  | 0x55 => some (.storeRegisters x)
  | 0x65 => some (.loadRegisters x)
  | _ => none

/-- The instruction of family `f` with the twelve bits `k` after the family. -/
def member? (f k : Nat) : Option Instruction :=
  let x : Nibble := lowNibble (k / 0x100)
  let y : Nibble := lowNibble (k / 0x10)
  let nn : UInt8 := UInt8.ofNat k
  let addr : Address := lowAddress k
  match f with
  | 0x0 => systemMember? k
  | 0x1 => some (.jump addr)
  | 0x2 => some (.call addr)
  | 0x3 => some (.skipIf (.equalsByte x nn))
  | 0x4 => some (.skipIf (.differsFromByte x nn))
  | 0x5 => if k % 0x10 = 0 then some (.skipIf (.equals x y)) else none
  | 0x6 => some (.loadByte x nn)
  | 0x7 => some (.addByte x nn)
  | 0x8 => (Operator.ofCode? (k % 0x10)).map (.combine · x y)
  | 0x9 => if k % 0x10 = 0 then some (.skipIf (.differs x y)) else none
  | 0xA => some (.loadIndex addr)
  | 0xB => some (.jumpOffset addr)
  | 0xC => some (.random x nn)
  | 0xD => some (.draw x y (lowNibble k))
  | 0xE => keyMember? x (k % 0x100)
  | 0xF => deviceMember? x (k % 0x100)
  | _ => none

/-- The instruction that a word stands for, if it stands for one. -/
def decode (w : UInt16) : Option Instruction :=
  member? (w.toNat / 0x1000) (w.toNat % 0x1000)

end Instruction

end ChipEight
