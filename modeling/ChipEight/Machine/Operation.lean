/-
Module: ChipEight.Machine.Operation
Purpose: What a host can do with a machine, as data, and what it is told. Register and key numbers
  count with their four low bits. A load that fails leaves the machine as it was.
Main exports: Machine.Operation, Machine.Answer, Machine.perform
-/
import ChipEight.Machine.Basic
import ChipEight.Screen.Operation

namespace ChipEight.Machine

/-- A host's dealing with a machine. -/
inductive Operation where
  | screen (operation : Screen.Operation)
  | restart
  | loadProgram (image : List UInt8)
  | loadFont (bytes : List UInt8)
  | tick
  | setDelayTimer (value : UInt8)
  | setSoundTimer (value : UInt8)
  | setKey (key : UInt8) (down : Bool)
  | setKeypad (keypad : Keypad)
  | setRegister (number : Nat) (value : UInt8)
  | setIndex (value : UInt16)
  /-- Ask for the value of a register. -/
  | register (number : Nat)
  /-- Ask for a stretch of memory. -/
  | memory (start length : Nat)
deriving DecidableEq

/-- What a host is told. -/
inductive Answer where
  | done
  | screen (answer : Screen.Answer)
  | loaded
  | rejected (error : LoadError)
  | byte (value : UInt8)
  | bytes (values : List UInt8)
deriving DecidableEq, Repr

/-- The machine that loading leaves, and whether it was changed. -/
def settle (m : Machine) : Except LoadError Machine → Answer × Machine
  | .ok m' => (.loaded, m')
  | .error e => (.rejected e, m)

/-- Carries out an operation. -/
def perform (m : Machine) : Operation → Answer × Machine
  | .screen operation =>
    let (answer, screen) := m.screen.perform operation
    (.screen answer, { m with screen })
  | .restart => (.done, m.restart)
  | .loadProgram image => m.settle (m.loadProgram image)
  | .loadFont bytes => m.settle (m.loadFont bytes)
  | .tick => (.done, m.tick)
  | .setDelayTimer value => (.done, { m with delayTimer := value })
  | .setSoundTimer value => (.done, { m with soundTimer := value })
  | .setKey key down =>
    (.done, { m with keypad := m.keypad.set (lowNibble key.toNat) down })
  | .setKeypad keypad => (.done, { m with keypad })
  | .setRegister number value => (.done, m.setRegister (lowNibble number) value)
  | .setIndex value => (.done, { m with index := value })
  | .register number => (.byte (m.register (lowNibble number)), m)
  | .memory start length => (.bytes (m.memory.slice start length), m)

end ChipEight.Machine
