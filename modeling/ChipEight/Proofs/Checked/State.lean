/-
Module: ChipEight.Proofs.Checked.State
Purpose: A machine on plain arrays, in which nothing is taken for granted. Every access names its
  cell by a number that may lie outside the array, and every sum that is meant to stay in the range
  of its type is checked; where one of them fails, the action ends in a trap and leaves the state as
  it is at that point. The stack is an array of sixteen cells with a pointer into it.
Main exports: Trap, State, Action, lookup, replace, register, setRegister, readByte, writeByte, push,
  pop, toggle
-/
import ChipEight.Interpreter.Operation
import ChipEight.Interpreter.Setup

namespace ChipEight.Checked

/-- Why an action stops. -/
inductive Trap where
  /-- The array has no cell of this number. -/
  | outOfBounds (index size : Nat)
  /-- A sum, a difference or a product leaves the range of its type. -/
  | overflow
  | offScreen (place : OffScreen)
deriving DecidableEq, Repr

/-- An interpreter on plain arrays. -/
structure State where
  memory : Vector UInt8 4096
  registers : Vector UInt8 16
  index : UInt16
  pc : UInt16
  /-- The cells below the stack pointer are in use, the oldest call first; the others are dead. -/
  stack : Vector UInt16 16
  stackPointer : UInt8
  delayTimer : UInt8
  soundTimer : UInt8
  /-- The screen, of any size. -/
  cells : Array UInt8
  pending : Bool
  keys : Vector Bool 16
  opcode : UInt16
  keysHeld? : Option (Vector Bool 16)
  font : Font
  dialect : Dialect
  generator : Generator
  program : List UInt8
  faults : UInt64

/-- A piece of a run: it ends with a result or in a trap, and leaves a state in either case. -/
def Action (α : Type) : Type := State → Except Trap α × State

variable {α β : Type}

/-- One action, and another one with its result, unless the first one ends in a trap. -/
def Action.andThen (action : Action α) (next : α → Action β) : Action β := fun s =>
  match action s with
  | (.ok a, s') => next a s'
  | (.error trap, s') => (.error trap, s')

instance : Monad Action where
  pure a := fun s => (.ok a, s)
  bind := Action.andThen

def trap (reason : Trap) : Action α := fun s => (.error reason, s)

def get (part : State → α) : Action α := fun s => (.ok (part s), s)

def update (change : State → State) : Action Unit := fun s => (.ok (), change s)

/-! ### Arrays and numbers

A cell is named by its number, and an array without that cell stops the action. So does a sum, a
difference or a product outside the range of its type. Arithmetic that is meant to wrap uses the
operators of the type itself and is not found here.
-/

def lookup {n : Nat} (values : Vector α n) (i : Nat) : Action α :=
  if h : i < n then pure values[i] else trap (.outOfBounds i n)

def replace {n : Nat} (values : Vector α n) (i : Nat) (value : α) : Action (Vector α n) :=
  if h : i < n then pure (values.set i value) else trap (.outOfBounds i n)

def addByte (a b : UInt8) : Action UInt8 :=
  if a.toNat + b.toNat < UInt8.size then pure (a + b) else trap .overflow

def subByte (a b : UInt8) : Action UInt8 :=
  if b ≤ a then pure (a - b) else trap .overflow

def addWord (a b : UInt16) : Action UInt16 :=
  if a.toNat + b.toNat < UInt16.size then pure (a + b) else trap .overflow

def mulWord (a b : UInt16) : Action UInt16 :=
  if a.toNat * b.toNat < UInt16.size then pure (a * b) else trap .overflow

def countUp (n : UInt64) : Action UInt64 :=
  if n.toNat + 1 < UInt64.size then pure (n + 1) else trap .overflow

/-! ### Parts of the machine

Of an address only the twelve low bits count, and the mask is applied where memory is read or
written. A call writes its place above the open ones before it moves the pointer, and a return moves
the pointer before it reads.
-/

def register (x : Nat) : Action UInt8 := do
  let registers ← get State.registers
  lookup registers x

def setRegister (x : Nat) (value : UInt8) : Action Unit := do
  let registers ← get State.registers
  let registers ← replace registers x value
  update fun s => { s with registers }

def setFlag (flag : Bool) : Action Unit := setRegister 0xF (if flag then 1 else 0)

def readByte (address : UInt16) : Action UInt8 := do
  let memory ← get State.memory
  lookup memory (address &&& 0xFFF).toNat

def writeByte (address : UInt16) (byte : UInt8) : Action Unit := do
  let memory ← get State.memory
  let memory ← replace memory (address &&& 0xFFF).toNat byte
  update fun s => { s with memory }

def readWord (address : UInt16) : Action UInt16 := do
  let high ← readByte address
  let low ← readByte (address + 1)
  pure (bigEndian high low)

/-- Copies bytes to a stretch of memory, which has to lie inside. -/
def copy (start : Nat) (bytes : List UInt8) : Action Unit :=
  if start + bytes.length ≤ Memory.size then
    update fun s => { s with memory := (Memory.store ⟨s.memory⟩ start bytes).cells }
  else trap (.outOfBounds (start + bytes.length) Memory.size)

def key (k : Nat) : Action Bool := do
  let keys ← get State.keys
  lookup keys k

def push (place : UInt16) : Action Unit := do
  let pointer ← get State.stackPointer
  let stack ← get State.stack
  let stack ← replace stack pointer.toNat place
  update fun s => { s with stack }
  let pointer ← addByte pointer 1
  update fun s => { s with stackPointer := pointer }

def pop : Action UInt16 := do
  let pointer ← get State.stackPointer
  let pointer ← subByte pointer 1
  update fun s => { s with stackPointer := pointer }
  let stack ← get State.stack
  lookup stack pointer.toNat

/-- The number of the cell at a column and a row of the screen. -/
def offset (x y : Nat) : Action Nat :=
  if x < Screen.width ∧ y < Screen.height then pure (y * Screen.width + x)
  else trap (.offScreen ⟨x, y⟩)

/-- The byte of the cell at a column and a row. -/
def cell (x y : Nat) : Action UInt8 := do
  let i ← offset x y
  let cells ← get State.cells
  if h : i < cells.size then pure cells[i] else trap (.outOfBounds i cells.size)

/-- Inverts the cell at a column and a row, and tells whether it was lit. -/
def toggle (x y : Nat) : Action Bool := do
  let i ← offset x y
  let cells ← get State.cells
  if h : i < cells.size then do
    update fun s => { s with cells := cells.set i (cells[i] ^^^ 1), pending := true }
    pure (cells[i] != 0)
  else trap (.outOfBounds i cells.size)

def clear : Action Unit :=
  update fun s => { s with cells := s.cells.map fun _ => 0, pending := true }

end ChipEight.Checked
