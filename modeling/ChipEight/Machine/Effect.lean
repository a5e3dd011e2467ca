/-
Module: ChipEight.Machine.Effect
Purpose: What each instruction does to a machine, the program counter apart, and where control goes
  next. Chance enters as a byte that only the random instruction looks at. Calls and returns are the
  only instructions that can fail, and then nothing has changed.
Main exports: Flow, Condition.holds, Machine.awaitKey, Machine.draw, Machine.carryOut
-/
import ChipEight.Fault
import ChipEight.Machine.Arithmetic
import ChipEight.Machine.Transfer
import ChipEight.Sprite

namespace ChipEight

/-- Where control goes after an instruction. -/
inductive Flow where
  | next
  /-- Past the next instruction. -/
  | skip
  | jump (address : UInt16)
  /-- The instruction is not finished and is carried out again. -/
  | stay
deriving DecidableEq, Repr

/-- Skips or does not skip. -/
def Flow.skipIf (condition : Bool) : Flow := if condition then .skip else .next

/-- The key that a register names, by its four low bits. -/
def Machine.namedKey (m : Machine) (x : Nibble) : Nibble := lowNibble (m.register x).toNat

/-- The condition of a skip instruction holds. -/
def Condition.holds (m : Machine) : Condition → Bool
  | .equalsByte x nn => m.register x == nn
  | .differsFromByte x nn => m.register x != nn
  | .equals x y => m.register x == m.register y
  | .differs x y => m.register x != m.register y
  | .keyDown x => m.keypad.isDown (m.namedKey x)
  | .keyUp x => !m.keypad.isDown (m.namedKey x)

namespace Machine

/-- One look at the keypad while waiting for a key. Keys that were down at every look since the wait
    began do not count; a key that was up at some look counts once it is down. -/
def awaitKey (m : Machine) (x : Nibble) : Flow × Machine :=
  let held := m.keypad.meet (m.keysHeld?.getD m.keypad)
  match m.keypad.fresh? held with
  | some key => (.next, { m.setRegister x (UInt8.ofNat key) with keysHeld? := none })
  | none => (.stay, { m with keysHeld? := some held })

/-- Draws the sprite of `n` rows at I, and tells in VF whether it met a lit pixel. -/
def draw (m : Machine) (d : Dialect) (x y n : Nibble) : Machine :=
  let pixels := Sprite.pixels m.memory m.index n d.wrapsSprites (m.register x) (m.register y)
  let (hit, screen) := m.screen.toggleAll pixels
  { m with screen := { screen with pending := true } }.setFlag hit

/-- The register that a jump with an offset adds. -/
def offsetRegister (d : Dialect) (addr : Address) : Nibble :=
  if d.jumpAddsVX then lowNibble (addr / 0x100) else lowNibble 0

/-- Carries out an instruction. `noise` is the random byte, should the instruction want one. -/
def carryOut (m : Machine) (d : Dialect) (noise : UInt8) :
    Instruction → Except Fault (Flow × Machine)
  | .clearScreen => .ok (.next, { m with screen := m.screen.clear })
  | .ret =>
    match m.stack with
    | [] => .error (.stackUnderflow m.pc)
    | caller :: rest => .ok (.jump (caller + 2), { m with stack := rest })
  | .jump addr => .ok (.jump (UInt16.ofNat addr), m)
  | .call addr =>
    if m.stack.length < stackDepth then
      .ok (.jump (UInt16.ofNat addr), { m with stack := m.pc :: m.stack })
    else .error (.stackOverflow m.pc)
  | .skipIf condition => .ok (.skipIf (condition.holds m), m)
  | .loadByte x nn => .ok (.next, m.setRegister x nn)
  | .addByte x nn => .ok (.next, m.setRegister x (m.register x + nn))
  | .combine op x y => .ok (.next, m.combine d op x y)
  | .loadIndex addr => .ok (.next, { m with index := UInt16.ofNat addr })
  | .jumpOffset addr =>
    .ok (.jump (UInt16.ofNat addr + (m.register (offsetRegister d addr)).toUInt16), m)
  | .random x nn => .ok (.next, m.setRegister x (noise &&& nn))
  | .draw x y n => .ok (.next, m.draw d x y n)
  | .loadDelay x => .ok (.next, m.setRegister x m.delayTimer)
  | .awaitKey x => .ok (m.awaitKey x)
  | .setDelay x => .ok (.next, { m with delayTimer := m.register x })
  | .setSound x => .ok (.next, { m with soundTimer := m.register x })
  | .addIndex x => .ok (.next, m.addToIndex x)
  | .loadGlyph x =>
    .ok (.next, { m with index := (m.register x).toUInt16 * UInt16.ofNat Font.glyphSize })
  | .storeDecimal x => .ok (.next, m.storeDecimal x)
  | .storeRegisters x => .ok (.next, m.storeRegisters d x)
  | .loadRegisters x => .ok (.next, m.loadRegisters d x)

end Machine

end ChipEight
