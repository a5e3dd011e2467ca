/-
Module: ChipEight.Fault
Purpose: What can go wrong while a program runs. A fault names the place of the instruction and does
  not end the program.
Main exports: Fault, Fault.message
-/
import ChipEight.Instruction.Mnemonic

namespace ChipEight

/-- Why an instruction was not carried out. -/
inductive Fault where
  /-- The word at the address is no instruction. -/
  | unknownOpcode (opcode address : UInt16)
  /-- A call while as many calls are open as there may be. -/
  | stackOverflow (address : UInt16)
  /-- A return while no call is open. -/
  | stackUnderflow (address : UInt16)
deriving DecidableEq, Repr

/-- The wording of a fault. -/
def Fault.message : Fault → String
  | .unknownOpcode opcode address =>
    "unknown opcode 0x" ++ Numeral.hex 4 opcode.toNat ++ " at " ++ addressText address.toNat
  | .stackOverflow address => "call at " ++ addressText address.toNat ++ " with a full stack"
  | .stackUnderflow address =>
    "return at " ++ addressText address.toNat ++ " with an empty stack"

end ChipEight
