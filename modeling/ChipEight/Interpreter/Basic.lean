/-
Module: ChipEight.Interpreter.Basic
Purpose: Running a machine one instruction at a time. An interpreter is a machine, a dialect, a
  generator, the program that a reset loads again, and the number of faults. A step fetches a word
  and carries it out. After a fault nothing is different but the program counter, which has moved
  past the word, and the count.
Main exports: Interpreter, Outcome, Interpreter.execute, Interpreter.step, Interpreter.steps,
  Interpreter.reset
-/
import ChipEight.Machine.Effect
import ChipEight.Random.Generator

namespace ChipEight

/-- A machine and what runs it. -/
structure Interpreter where
  machine : Machine
  dialect : Dialect
  generator : Generator
  /-- The program that a reset loads. -/
  program : List UInt8
  /-- How many faults there were since the last reset. -/
  faults : Nat
deriving DecidableEq

/-- What became of a step. -/
inductive Outcome where
  | executed (instruction : Instruction)
  /-- The program waits for a key and has not moved. -/
  | waiting
  | fault (fault : Fault)
deriving DecidableEq, Repr

namespace Flow

/-- The program counter after an instruction at `pc`. -/
def target (pc : UInt16) : Flow → UInt16
  | .next => pc + 2
  | .skip => pc + 4
  | .jump address => address
  | .stay => pc

/-- What a step says of an instruction after which control goes this way. -/
def outcome (i : Instruction) : Flow → Outcome
  | .stay => .waiting
  | _ => .executed i

end Flow

/-- The random byte for an instruction, and the generator after it: only the random instruction
    draws a word, and uses its low byte. -/
def Generator.noiseFor (g : Generator) : Instruction → UInt8 × Generator
  | .random _ _ => let (w, g') := g.next; (w.toUInt8, g')
  | _ => (0, g)

namespace Interpreter

/-- Reads the word at the program counter. -/
def fetch (c : Interpreter) : Interpreter := { c with machine := c.machine.fetch }

/-- Counts a fault and passes over the word. -/
def fail (c : Interpreter) (f : Fault) : Outcome × Interpreter :=
  (.fault f,
    { c with machine := { c.machine with pc := c.machine.pc + 2 }, faults := c.faults + 1 })

/-- Carries out an instruction and moves the program counter. -/
def perform (c : Interpreter) (i : Instruction) : Outcome × Interpreter :=
  let (noise, generator) := c.generator.noiseFor i
  match c.machine.carryOut c.dialect noise i with
  | .ok (flow, m) =>
    (flow.outcome i, { c with machine := { m with pc := flow.target c.machine.pc }, generator })
  | .error f => c.fail f

/-- Carries out the word that was fetched last. -/
def execute (c : Interpreter) : Outcome × Interpreter :=
  match Instruction.decode c.machine.opcode with
  | some i => c.perform i
  | none => c.fail (.unknownOpcode c.machine.opcode c.machine.pc)

/-- Fetches a word and carries it out. -/
def step (c : Interpreter) : Outcome × Interpreter := c.fetch.execute

/-- `n` steps, and what became of each. -/
def steps (c : Interpreter) : Nat → List Outcome × Interpreter
  | 0 => ([], c)
  | n + 1 =>
    let (outcome, c₁) := c.step
    let (outcomes, c₂) := c₁.steps n
    (outcome :: outcomes, c₂)

/-- One tick of both timers. -/
def tick (c : Interpreter) : Interpreter := { c with machine := c.machine.tick }

/-- `n` ticks of both timers. -/
def ticks (c : Interpreter) : Nat → Interpreter
  | 0 => c
  | n + 1 => c.tick.ticks n

/-- Restarts the machine, loads the program again and forgets the faults. The generator goes on
    where it was. -/
def reset (c : Interpreter) : Except LoadError Interpreter := do
  let machine ← c.machine.restart.loadProgram c.program
  return { c with machine, faults := 0 }

end Interpreter

end ChipEight
