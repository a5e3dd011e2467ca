/-
Module: ChipEight.Proofs.RegisterTransfer
Purpose: Saving registers and getting them back. The registers V0 to VX stand in as many cells of their
  own, from I on and around the end of memory if need be, so that nothing is lost by storing them and
  nothing is changed by storing what was loaded. What a transfer makes of I is undone by setting I
  back, in the dialects in which there is something to undo.
Main exports: Machine.register_loadRegisters, Machine.toNat_indexAfter,
  Machine.register_loadRegisters_of_stored, Machine.memory_storeRegisters_of_loaded,
  Interpreter.SetBack, Interpreter.registers_survive_memory
-/
import ChipEight.Proofs.Ownership

namespace ChipEight

open Interpreter (Operation)

namespace Machine

variable {m m' : Machine} {d : Dialect} {x : Nibble}

/-- The registers up to VX are read from I on, and the others stay. -/
theorem register_loadRegisters (m : Machine) (d : Dialect) (x r : Nibble) :
    (m.loadRegisters d x).register r =
      if r ≤ x then m.memory.cells.get (lowAddress (m.index.toNat + r)) else m.register r := by
  have loaded : (m.loadRegisters d x).register r =
      if r ≤ x then m.memory.read (m.transferAddress r) else m.register r :=
    Vector.getElem_ofFn r.isLt
  rw [loaded, transferAddress, Memory.read_add]
  rfl

theorem memory_loadRegisters (m : Machine) (d : Dialect) (x : Nibble) :
    (m.loadRegisters d x).memory = m.memory := by
  obtain ⟨registers, index, same⟩ := m.loadRegisters_frame d x
  rw [same]

/-- I moves on by the number of the registers, in words of 16 bits, or stays. -/
theorem toNat_indexAfter (m : Machine) (d : Dialect) (x : Nibble) :
    (m.indexAfter d x).toNat =
      if d.transferMovesIndex then (m.index.toNat + x + 1) % 65536 else m.index.toNat := by
  have small : (UInt16.ofNat (x + 1)).toNat = x + 1 :=
    UInt16.toNat_ofNat_of_lt (Nat.lt_of_le_of_lt x.isLt (by decide))
  rw [indexAfter, apply_ite UInt16.toNat, UInt16.toNat_add, small, ← Nat.add_assoc]

/-- Registers that were stored from I on are loaded from there again, and the others stay. -/
theorem register_loadRegisters_of_stored {r : Nibble}
    (memory : m'.memory = (m.storeRegisters d x).memory) (index : m'.index = m.index)
    (beyond : x < r → m'.register r = m.register r) :
    (m'.loadRegisters d x).register r = m.register r := by
  rw [register_loadRegisters]
  split
  case isTrue upTo =>
    rw [memory, index]
    exact m.get_storeRegisters d upTo
  case isFalse above => exact beyond (Fin.not_le.mp above)

/-- Registers that hold what stands from I on change nothing when they are stored there. -/
theorem memory_storeRegisters_of_loaded
    (holds : ∀ r ≤ x, m.register r = m.memory.cells.get (lowAddress (m.index.toNat + r))) :
    (m.storeRegisters d x).memory = m.memory := by
  refine Memory.ext_cells fun i inside => ?_
  show (m.storeRegisters d x).memory.cells.get ⟨i, inside⟩ = m.memory.cells.get ⟨i, inside⟩
  by_cases covered : (⟨i, inside⟩ : Address) ∈ (Instruction.storeRegisters x).footprint m
  · obtain ⟨r, below, place⟩ := List.mem_map.mp covered
    have small : r < 16 := Nat.lt_of_lt_of_le (List.mem_range.mp below) x.isLt
    have upTo : (⟨r, small⟩ : Nibble) ≤ x := Nat.le_of_lt_succ (List.mem_range.mp below)
    rw [← place]
    exact (m.get_storeRegisters d upTo).trans (holds ⟨r, small⟩ upTo)
  · exact get_storeRegisters_of_not_mem covered

end Machine

namespace Interpreter

variable {c e : Interpreter} {x : Nibble}

theorem carriesOut_storeRegisters
    (decoded : Instruction.decode c.machine.opcode = some (.storeRegisters x)) :
    c.CarriesOut (.storeRegisters x) (c.machine.storeRegisters c.dialect x) :=
  carriesOut_of_next decoded rfl

theorem carriesOut_loadRegisters
    (decoded : Instruction.decode c.machine.opcode = some (.loadRegisters x)) :
    c.CarriesOut (.loadRegisters x) (c.machine.loadRegisters c.dialect x) :=
  carriesOut_of_next decoded rfl

/-- What may stand between two transfers: the dialect is the same, memory is as the execution of `c`
    left it, and so is I, unless the dialect moves it; then it is set back to what it was. The program
    counter, the screen and whatever else there is may be different. -/
structure SetBack (c e : Interpreter) : Prop where
  dialect : e.dialect = c.dialect
  memory : e.machine.memory = c.execute.2.machine.memory
  index : e.machine.index =
    if c.dialect.transferMovesIndex then c.machine.index else c.execute.2.machine.index

theorem SetBack.index_eq (back : SetBack c e)
    (moved : c.execute.2.machine.index = c.machine.indexAfter c.dialect x) :
    e.machine.index = c.machine.index := by
  rw [back.index, moved, Machine.indexAfter]
  split <;> rfl

/-- Registers survive in memory. Storing V0 to VX, overwriting them with anything and loading them from
    the same place gives every register its value before, and no cell has changed but the X + 1 cells
    from I on, around the end of memory; loading V0 to VX and storing them to the same place leaves
    memory as it was. Either instruction moves I on by X + 1, in words of 16 bits, or leaves it
    where it is, as the dialect says. -/
theorem registers_survive_memory :
    (∀ (c e : Interpreter) (x : Nibble),
      Instruction.decode c.machine.opcode = some (.storeRegisters x) →
      Instruction.decode e.machine.opcode = some (.loadRegisters x) →
      c.SetBack e →
      (∀ r, x < r → e.machine.register r = c.execute.2.machine.register r) →
        c.execute.1 = .executed (.storeRegisters x) ∧
        e.execute.1 = .executed (.loadRegisters x) ∧
        (∀ r, e.execute.2.machine.register r = c.machine.register r) ∧
        ∀ a : Address, (∀ r ≤ x.val, a.val ≠ (c.machine.index.toNat + r) % 4096) →
          e.execute.2.machine.memory.cells.get a = c.machine.memory.cells.get a) ∧
    (∀ (c e : Interpreter) (x : Nibble),
      Instruction.decode c.machine.opcode = some (.loadRegisters x) →
      Instruction.decode e.machine.opcode = some (.storeRegisters x) →
      c.SetBack e →
      (∀ r, e.machine.register r = c.execute.2.machine.register r) →
        c.execute.1 = .executed (.loadRegisters x) ∧
        e.execute.1 = .executed (.storeRegisters x) ∧
        e.execute.2.machine.memory = c.machine.memory) ∧
    ∀ (c : Interpreter) (x : Nibble) (i : Instruction),
      i = .storeRegisters x ∨ i = .loadRegisters x →
      Instruction.decode c.machine.opcode = some i →
        c.execute.2.machine.index.toNat =
          if c.dialect.transferMovesIndex then (c.machine.index.toNat + x + 1) % 65536
          else c.machine.index.toNat := by
  refine ⟨?_, ?_, ?_⟩
  · intro c e x stores loads back beyond
    have stored := carriesOut_storeRegisters stores
    have loaded := carriesOut_loadRegisters loads
    have index : e.machine.index = c.machine.index := back.index_eq stored.index
    have memory : e.machine.memory = (c.machine.storeRegisters c.dialect x).memory :=
      back.memory.trans stored.memory
    refine ⟨stored.outcome, loaded.outcome, fun r => ?_, fun a outside => ?_⟩
    · rw [loaded.register]
      exact Machine.register_loadRegisters_of_stored memory index fun above =>
        (beyond r above).trans (stored.register r)
    · rw [loaded.memory]
      show e.machine.memory.cells.get a = c.machine.memory.cells.get a
      rw [memory]
      apply Machine.get_storeRegisters_of_not_mem
      intro covered
      obtain ⟨r, below, place⟩ := List.mem_map.mp covered
      exact outside r (Nat.le_of_lt_succ (List.mem_range.mp below)) (congrArg Fin.val place).symm
  · intro c e x loads stores back kept
    have loaded := carriesOut_loadRegisters loads
    have stored := carriesOut_storeRegisters stores
    have index : e.machine.index = c.machine.index := back.index_eq loaded.index
    have memory : e.machine.memory = c.machine.memory := by
      rw [back.memory, loaded.memory, Machine.memory_loadRegisters]
    refine ⟨loaded.outcome, stored.outcome, ?_⟩
    rw [stored.memory, ← memory]
    refine Machine.memory_storeRegisters_of_loaded fun r upTo => ?_
    rw [kept, loaded.register, Machine.register_loadRegisters, if_pos upTo, memory, index]
  · rintro c x i (rfl | rfl) decoded
    · rw [(carriesOut_storeRegisters decoded).index]
      exact c.machine.toNat_indexAfter c.dialect x
    · rw [(carriesOut_loadRegisters decoded).index]
      exact c.machine.toNat_indexAfter c.dialect x

/-- A program that transfers V0 to V2 twice, from the last cell on, in a dialect that moves I. -/
def transferring (first second : UInt8) : Interpreter :=
  { ofProgram [0xF2, first, 0xF2, second] with
    dialect := { transferMovesIndex := true }
    machine := { (ofProgram [0xF2, first, 0xF2, second]).machine with
      registers := #v[21, 22, 23, 24, 0, 0, 0, 0, 0, 0, 0, 0, 0, 0, 0, 0]
      index := 0xFFFF } }

/-- The registers were stored, and the host has overwritten one of them and set I back. -/
def overwritten : Interpreter :=
  (transferring 0x55 0x65).fetch.execute.2.after
    [.machine (.setRegister 1 9), .machine (.setIndex 0xFFFF)]

/-- The registers were loaded, and the host has set I back. -/
def loadedFirst : Interpreter :=
  (transferring 0x65 0x55).fetch.execute.2.after [.machine (.setIndex 0xFFFF)]

/-- The register that was overwritten comes back from the first cell, and I has moved on to the third
    one; what was loaded first is stored without any change to memory. -/
theorem registers_survive_memory_aroundEnd :
    overwritten.machine.register 1 = 9 ∧
      overwritten.fetch.execute.2.machine.register 1 = 22 ∧
      (transferring 0x55 0x65).fetch.execute.2.machine.index.toNat = 2 ∧
      loadedFirst.fetch.execute.2.machine.memory = (transferring 0x65 0x55).fetch.machine.memory := by
  obtain ⟨saved, restored, moved⟩ := registers_survive_memory
  have kept (c : Interpreter) {operations : List Operation}
      (idle : ∀ operation ∈ operations, operation.idle) :
      (c.after operations).fetch.machine.memory = c.machine.memory := (after_idle idle).2
  obtain ⟨nine, twentyTwo, stores, loads, dialect, index, others⟩ :
      overwritten.machine.register 1 = 9 ∧
      (transferring 0x55 0x65).fetch.machine.register 1 = 22 ∧
      Instruction.decode (transferring 0x55 0x65).fetch.machine.opcode =
        some (.storeRegisters 2) ∧
      Instruction.decode overwritten.fetch.machine.opcode = some (.loadRegisters 2) ∧
      overwritten.fetch.dialect = (transferring 0x55 0x65).fetch.dialect ∧
      overwritten.fetch.machine.index = 0xFFFF ∧
      ∀ r, 2 < r → overwritten.fetch.machine.register r =
        (transferring 0x55 0x65).fetch.execute.2.machine.register r := by
    decide +kernel
  obtain ⟨-, -, registers, -⟩ := saved _ _ 2 stores loads ⟨dialect, kept _ (by decide), index⟩ others
  have next := moved (transferring 0x55 0x65).fetch 2 _ (.inl rfl) stores
  obtain ⟨loads, stores, dialect, index, others⟩ :
      Instruction.decode (transferring 0x65 0x55).fetch.machine.opcode =
        some (.loadRegisters 2) ∧
      Instruction.decode loadedFirst.fetch.machine.opcode = some (.storeRegisters 2) ∧
      loadedFirst.fetch.dialect = (transferring 0x65 0x55).fetch.dialect ∧
      loadedFirst.fetch.machine.index = 0xFFFF ∧
      ∀ r, loadedFirst.fetch.machine.register r =
        (transferring 0x65 0x55).fetch.execute.2.machine.register r := by
    decide +kernel
  obtain ⟨-, -, same⟩ := restored _ _ 2 loads stores ⟨dialect, kept _ (by decide), index⟩ others
  exact ⟨nine, (registers 1).trans twentyTwo, next, same⟩

end Interpreter

end ChipEight
