/-
Module: ChipEight.Interpreter.Operation
Purpose: What a host can do with an interpreter, as data, and what it is told; and paced runs of
  many steps of which only the counts matter.
Main exports: Interpreter.Operation, Interpreter.Answer, Interpreter.respond, Interpreter.Tally,
  Interpreter.runPaced
-/
import ChipEight.Interpreter.Basic
import ChipEight.Machine.Operation

namespace ChipEight.Interpreter

/-- A host's dealing with an interpreter. -/
inductive Operation where
  | machine (operation : Machine.Operation)
  | fetch
  | execute
  | step
  | tick
  | reset
deriving DecidableEq

/-- What a host is told. -/
inductive Answer where
  | done
  | machine (answer : Machine.Answer)
  | outcome (outcome : Outcome)
  | restored
  | rejected (error : LoadError)
deriving DecidableEq, Repr

/-- Carries out an operation. -/
def respond (c : Interpreter) : Operation → Answer × Interpreter
  | .machine operation =>
    let (answer, machine) := c.machine.perform operation
    (.machine answer, { c with machine })
  | .fetch => (.done, c.fetch)
  | .execute => let (outcome, c') := c.execute; (.outcome outcome, c')
  | .step => let (outcome, c') := c.step; (.outcome outcome, c')
  | .tick => (.done, c.tick)
  | .reset =>
    match c.reset with
    | .ok c' => (.restored, c')
    | .error e => (.rejected e, c)

/-- How often each kind of outcome occurred. -/
structure Tally where
  executed : Nat := 0
  waiting : Nat := 0
  faults : Nat := 0
deriving DecidableEq, Repr

/-- Counts an outcome. -/
def Tally.count (t : Tally) : Outcome → Tally
  | .executed _ => { t with executed := t.executed + 1 }
  | .waiting => { t with waiting := t.waiting + 1 }
  | .fault _ => { t with faults := t.faults + 1 }

/-- Runs `n` steps after `done` earlier ones; after every step whose number, counted from one, is a
    multiple of `period` the timers tick. -/
def runPaced (period : Nat) (done : Nat) (t : Tally) (c : Interpreter) : Nat → Tally × Interpreter
  | 0 => (t, c)
  | n + 1 =>
    let (outcome, c') := c.step
    let c'' := if (done + 1) % period = 0 then c'.tick else c'
    runPaced period (done + 1) (t.count outcome) c'' n

end ChipEight.Interpreter
