/-
Module: ChipEight.Machine.Transfer
Purpose: Moving data between registers and the memory at I. Every address I + r counts with its
  twelve low bits, so a transfer may go round the end of memory; I itself moves on only in the
  dialects that say so.
Main exports: Machine.storeDecimal, Machine.storeRegisters, Machine.loadRegisters
-/
import ChipEight.Dialect
import ChipEight.Machine.Basic

namespace ChipEight.Machine

/-- The registers V0 to VX. -/
def registersUpTo (x : Nibble) : List Nibble :=
  (List.finRange 16).filter (· ≤ x)

theorem mem_registersUpTo {x r : Nibble} : r ∈ registersUpTo x ↔ r ≤ x := by
  rw [registersUpTo, List.mem_filter, decide_eq_true_iff]
  exact and_iff_right (List.mem_finRange r)

/-- The address that a transfer uses for the register `r`. -/
def transferAddress (m : Machine) (r : Nibble) : UInt16 :=
  m.index + UInt16.ofNat r

/-- I after a transfer of V0 to VX. -/
def indexAfter (m : Machine) (d : Dialect) (x : Nibble) : UInt16 :=
  if d.transferMovesIndex then m.index + UInt16.ofNat (x + 1) else m.index

/-- Writes the hundreds, tens and ones of VX to three cells. -/
def storeDecimal (m : Machine) (x : Nibble) : Machine :=
  let v := m.register x
  { m with
    memory :=
      ((m.memory.write m.index (v / 100)).write (m.index + 1) (v / 10 % 10)).write
        (m.index + 2) (v % 10) }

/-- Writes V0 to VX to memory. -/
def storeRegisters (m : Machine) (d : Dialect) (x : Nibble) : Machine :=
  { m with
    memory :=
      (registersUpTo x).foldl (fun memory r => memory.write (m.transferAddress r) (m.register r))
        m.memory
    index := m.indexAfter d x }

/-- Reads V0 to VX from memory. -/
def loadRegisters (m : Machine) (d : Dialect) (x : Nibble) : Machine :=
  { m with
    registers :=
      Vector.ofFn fun r =>
        if r ≤ x then m.memory.read (m.transferAddress r) else m.register r
    index := m.indexAfter d x }

end ChipEight.Machine
