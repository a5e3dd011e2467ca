/-
Module: ChipEight.Instruction.Basic
Purpose: The instruction set as data. Operands carry their range in their type: a register or a
  sprite height is a nibble, an immediate is a byte, an address has twelve bits. The nine
  register-to-register operators and the six conditions of the skip instructions are types of their
  own, because everything but the operator or the condition is common to each group.
Main exports: Nibble, Address, lowNibble, lowAddress, Operator, Condition, Instruction
-/

namespace ChipEight

/-- Four bits: a register number, a key or a sprite height. -/
abbrev Nibble := Fin 16

/-- Twelve bits: every address that an instruction can hold. -/
abbrev Address := Fin 4096

theorem mod_nibble_lt (n : Nat) : n % 0x10 < 16 := Nat.mod_lt n (by decide)

theorem mod_address_lt (n : Nat) : n % 0x1000 < 4096 := Nat.mod_lt n (by decide)

/-- The four low bits of a number. -/
def lowNibble (n : Nat) : Nibble := ⟨n % 0x10, mod_nibble_lt n⟩

/-- The twelve low bits of a number. -/
def lowAddress (n : Nat) : Address := ⟨n % 0x1000, mod_address_lt n⟩

/-- What an instruction of the family `8XY_` does to VX with the value of VY. -/
inductive Operator where
  /-- VX becomes VY. -/
  | copy
  | or
  | and
  | xor
  /-- VX becomes VX + VY, and VF the carry. -/
  | add
  /-- VX becomes VX - VY, and VF tells that no borrow was needed. -/
  | sub
  /-- VX becomes the source shifted right, and VF the bit shifted out. -/
  | shiftRight
  /-- VX becomes VY - VX, and VF tells that no borrow was needed. -/
  | subFrom
  /-- VX becomes the source shifted left, and VF the bit shifted out. -/
  | shiftLeft
deriving DecidableEq, Repr, Inhabited

/-- What has to hold for a skip instruction to skip the next one. -/
inductive Condition where
  | equalsByte (x : Nibble) (nn : UInt8)
  | differsFromByte (x : Nibble) (nn : UInt8)
  | equals (x y : Nibble)
  | differs (x y : Nibble)
  /-- The key that VX names is down. -/
  | keyDown (x : Nibble)
  /-- The key that VX names is up. -/
  | keyUp (x : Nibble)
deriving DecidableEq, Repr, Inhabited

/-- A decoded instruction. -/
inductive Instruction where
  /-- `00E0`: make the screen dark. -/
  | clearScreen
  /-- `00EE`: go on after the innermost call. -/
  | ret
  /-- `1NNN`: go to the address. -/
  | jump (addr : Address)
  /-- `2NNN`: remember this place and go to the address. -/
  | call (addr : Address)
  /-- `3XNN`, `4XNN`, `5XY0`, `9XY0`, `EX9E`, `EXA1`: skip the next instruction. -/
  | skipIf (condition : Condition)
  /-- `6XNN`: VX becomes the byte. -/
  | loadByte (x : Nibble) (nn : UInt8)
  /-- `7XNN`: add the byte to VX and leave VF alone. -/
  | addByte (x : Nibble) (nn : UInt8)
  /-- `8XY_`: combine VX with VY. -/
  | combine (op : Operator) (x y : Nibble)
  /-- `ANNN`: I becomes the address. -/
  | loadIndex (addr : Address)
  /-- `BNNN`: go to the address plus a register. -/
  | jumpOffset (addr : Address)
  /-- `CXNN`: VX becomes a random byte masked with the operand. -/
  | random (x : Nibble) (nn : UInt8)
  /-- `DXYN`: draw the sprite of `n` rows at I to the place (VX, VY). -/
  | draw (x y n : Nibble)
  /-- `FX07`: VX becomes the delay timer. -/
  | loadDelay (x : Nibble)
  /-- `FX0A`: wait until a key goes down and put it into VX. -/
  | awaitKey (x : Nibble)
  /-- `FX15`: set the delay timer to VX. -/
  | setDelay (x : Nibble)
  /-- `FX18`: set the sound timer to VX. -/
  | setSound (x : Nibble)
  /-- `FX1E`: add VX to I. -/
  | addIndex (x : Nibble)
  /-- `FX29`: I becomes the address of the glyph for VX. -/
  | loadGlyph (x : Nibble)
  /-- `FX33`: store the three decimal digits of VX at I. -/
  | storeDecimal (x : Nibble)
  /-- `FX55`: store V0 to VX at I. -/
  | storeRegisters (x : Nibble)
  /-- `FX65`: load V0 to VX from I. -/
  | loadRegisters (x : Nibble)
deriving DecidableEq, Repr, Inhabited

end ChipEight
