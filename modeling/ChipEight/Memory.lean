/-
Module: ChipEight.Memory
Purpose: The 4096 bytes that a program can address. An address counts with its twelve low bits only,
  so every address reads and writes a cell; a word is two bytes, the high one first, and may wrap
  from the last cell to the first.
Main exports: Memory, Memory.read, Memory.write, Memory.readWord, Memory.store, Memory.slice
-/
import ChipEight.Listing

namespace ChipEight

/-- All memory cells. -/
structure Memory where
  cells : Vector UInt8 4096
deriving DecidableEq

namespace Memory

/-- How many cells there are. -/
def size : Nat := 4096

/-- Memory full of zeros. -/
def zero : Memory := ⟨Vector.replicate 4096 0⟩

/-- The cell that an address means. -/
def cell (address : UInt16) : Address := lowAddress address.toNat

/-- The byte at an address. -/
def read (m : Memory) (address : UInt16) : UInt8 :=
  m.cells[cell address]

/-- The memory with another byte at an address. -/
def write (m : Memory) (address : UInt16) (byte : UInt8) : Memory :=
  ⟨m.cells.set (cell address) byte⟩

/-- The word at an address. -/
def readWord (m : Memory) (address : UInt16) : UInt16 :=
  bigEndian (m.read address) (m.read (address + 1))

/-- The memory with bytes copied to `start` and after it; what would lie behind the last cell is
    dropped. -/
def store (m : Memory) (start : Nat) : List UInt8 → Memory
  | [] => m
  | byte :: rest => store ⟨m.cells.setIfInBounds start byte⟩ (start + 1) rest

/-- The bytes from `start` on, at most `length` of them. -/
def slice (m : Memory) (start length : Nat) : List UInt8 :=
  (m.cells.toList.drop start).take length

/-- A written byte is read at every address of its cell, and no other cell has changed. -/
theorem read_write (m : Memory) (a b : UInt16) (byte : UInt8) :
    (m.write a byte).read b = if cell b = cell a then byte else m.read b := by
  simp only [read, write, Fin.getElem_fin, Vector.getElem_set, Fin.val_inj, eq_comm]

/-- The address `r` places behind another means the cell of the sum, whether the sum wraps or not. -/
theorem cell_add (address : UInt16) (r : Nat) :
    cell (address + UInt16.ofNat r) = lowAddress (address.toNat + r) := by
  apply Fin.ext
  show (address + UInt16.ofNat r).toNat % 0x1000 = (address.toNat + r) % 0x1000
  rw [UInt16.toNat_add, UInt16.toNat_ofNat']
  omega

theorem read_add (m : Memory) (address : UInt16) (r : Nat) :
    m.read (address + UInt16.ofNat r) = m.cells[lowAddress (address.toNat + r)] :=
  congrArg (fun cell : Address => m.cells[cell]) (cell_add address r)

/-- A copy changes the cells that it covers, as far as there are cells, and no others. -/
theorem getElem_store (m : Memory) (start i : Nat) (bytes : List UInt8) (h : i < 4096) :
    (m.store start bytes).cells[i] =
      if start ≤ i then bytes[i - start]?.getD m.cells[i] else m.cells[i] := by
  induction bytes generalizing m start with
  | nil => simp [store]
  | cons byte rest ih =>
    rw [store, ih]
    by_cases hlt : start < i
    · have hi : i - start = (i - (start + 1)) + 1 := by omega
      have hne : start ≠ i := by omega
      simp [hi, Nat.le_of_lt hlt, hne, Nat.succ_le_of_lt hlt]
    · by_cases heq : start = i
      · subst heq
        have hnext : ¬ start + 1 ≤ start := by omega
        simp [hnext]
      · have hle : ¬ start ≤ i := by omega
        have hnext : ¬ start + 1 ≤ i := by omega
        simp [hle, hnext, heq]

end Memory

end ChipEight
