/-
Module: ChipEight.Machine.Basic
Purpose: Everything that a program can see or change, and how it begins. Programs stand from 0x200
  on, the font at the start of memory. A restart brings back the initial state, with the font that
  was loaded last; only the stack's live entries are kept, innermost first, so its length is the
  stack pointer.
Main exports: Machine, Machine.restart, Machine.initial, LoadError, Machine.loadProgram,
  Machine.loadFont, Machine.tick
-/
import ChipEight.Font
import ChipEight.Keypad
import ChipEight.Memory
import ChipEight.Screen.Basic

namespace ChipEight

/-- The state that a program works on. -/
structure Machine where
  memory : Memory
  /-- The registers V0 to VF; VF doubles as the flag. -/
  registers : Vector UInt8 16
  /-- The register I. -/
  index : UInt16
  pc : UInt16
  /-- The places of the calls that have not returned, the innermost first. -/
  stack : List UInt16
  delayTimer : UInt8
  soundTimer : UInt8
  screen : Screen
  keypad : Keypad
  /-- The word that was fetched last. -/
  opcode : UInt16
  /-- While a program waits for a key: the keys that were down at every look so far. -/
  keysHeld? : Option Keypad
  /-- The font that a restart copies to memory. -/
  font : Font
deriving DecidableEq

/-- Why bytes could not be loaded. -/
inductive LoadError where
  | programTooLarge (size : Nat)
  | wrongFontSize (size : Nat)
deriving DecidableEq, Repr

namespace Machine

/-- Where programs begin. -/
def programStart : Nat := 0x200

/-- How many bytes a program may have. -/
def maxProgramSize : Nat := Memory.size - programStart

/-- How many calls may be open at once. -/
def stackDepth : Nat := 16

/-- A machine with a font, before any program. -/
def withFont (font : Font) : Machine where
  memory := Memory.zero.store 0 font.toList
  registers := Vector.replicate 16 0
  index := 0
  pc := UInt16.ofNat programStart
  stack := []
  delayTimer := 0
  soundTimer := 0
  screen := Screen.dark
  keypad := Keypad.released
  opcode := 0
  keysHeld? := none
  font := font

/-- A machine with the standard font. -/
def initial : Machine := withFont Font.standard

/-- Forgets everything but the font. -/
def restart (m : Machine) : Machine := withFont m.font

/-- Copies a program to its place. Nothing else changes: bytes of an earlier, longer program stay
    behind it. -/
def loadProgram (m : Machine) (image : List UInt8) : Except LoadError Machine :=
  if image.length ≤ maxProgramSize then
    .ok { m with memory := m.memory.store programStart image }
  else .error (.programTooLarge image.length)

/-- Takes another font, at once and for every later restart. -/
def loadFont (m : Machine) (bytes : List UInt8) : Except LoadError Machine :=
  match Font.ofBytes? bytes with
  | some font => .ok { m with memory := m.memory.store 0 bytes, font }
  | none => .error (.wrongFontSize bytes.length)

/-- A timer one tick later: it stops at zero. -/
def countDown (timer : UInt8) : UInt8 := if timer = 0 then 0 else timer - 1

/-- One tick of both timers. -/
def tick (m : Machine) : Machine :=
  { m with delayTimer := countDown m.delayTimer, soundTimer := countDown m.soundTimer }

/-- A tone should play. -/
def soundsTone (m : Machine) : Bool := m.soundTimer != 0

/-- Reads the word at the program counter. -/
def fetch (m : Machine) : Machine := { m with opcode := m.memory.readWord m.pc }

/-- The value of a register. -/
def register (m : Machine) (x : Nibble) : UInt8 := m.registers[x]

/-- The machine with another value in a register. -/
def setRegister (m : Machine) (x : Nibble) (value : UInt8) : Machine :=
  { m with registers := m.registers.set x value }

/-- A register that is set has its new value, and every other register its old one. -/
theorem register_setRegister (m : Machine) (x y : Nibble) (value : UInt8) :
    (m.setRegister x value).register y = if y = x then value else m.register y := by
  simp only [register, setRegister, Fin.getElem_fin, Vector.getElem_set, Fin.val_inj, eq_comm]

/-- The machine with a truth value in VF. -/
def setFlag (m : Machine) (flag : Bool) : Machine :=
  m.setRegister (lowNibble 0xF) (if flag then 1 else 0)

/-- The truth value stands in VF, and every other register has its old value. -/
theorem register_setFlag (m : Machine) (flag : Bool) (r : Nibble) :
    (m.setFlag flag).register r = if r = 0xF then (if flag then 1 else 0) else m.register r :=
  register_setRegister m 0xF r _

end Machine

/-- The wording of a load error. -/
def LoadError.message : LoadError → String
  | .programTooLarge size =>
    "program is " ++ Numeral.decimal size ++ " bytes, at most " ++
      Numeral.decimal Machine.maxProgramSize ++ " fit above 0x200"
  | .wrongFontSize size =>
    "font must be exactly " ++ Numeral.decimal Font.size ++ " bytes, got " ++ Numeral.decimal size

end ChipEight
