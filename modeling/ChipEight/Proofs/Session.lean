/-
Module: ChipEight.Proofs.Session
Purpose: Whole histories of a host's dealings with an interpreter. A session is the list of the
  operations that were carried out; its turns record, in the same order, what stood before each
  operation and what was answered. The turns since the last restart are those that the present
  contents of a machine can depend on.
Main exports: Turn, Interpreter.after, Interpreter.turns, sinceRestart, Interpreter.Built
-/
import ChipEight.Interpreter.Operation
import ChipEight.Interpreter.Setup
import Mathlib.Data.List.DropRight

namespace ChipEight

open Interpreter (Operation Answer)

/-- One operation of a session: the program counter and the keypad before it, and its answer. -/
structure Turn where
  place : UInt16
  keypad : Keypad
  operation : Operation
  answer : Answer
deriving DecidableEq

/-- The operation puts the machine back to its initial state. -/
def Interpreter.Operation.restarts : Operation → Bool
  | .machine .restart | .reset => true
  | _ => false

/-- The operation carries out a word. -/
def Interpreter.Operation.runs : Operation → Bool
  | .step | .execute => true
  | _ => false

/-- The operation lets both timers tick. -/
def Interpreter.Operation.ticks : Operation → Bool
  | .tick | .machine .tick => true
  | _ => false

/-- The operation copies a program or a font into memory. -/
def Interpreter.Operation.loads : Operation → Bool
  | .machine (.loadProgram _) | .machine (.loadFont _) => true
  | _ => false

/-- The operation leaves the program at its place: it writes keys, registers, timers or the screen, or
    only asks. -/
def Interpreter.Operation.idle (operation : Operation) : Bool :=
  !operation.runs && !operation.restarts && !operation.loads

/-- The place off the screen that an operation names, if it names one. -/
def Screen.Operation.offScreen? : Screen.Operation → Option OffScreen
  | .toggle x y | .pixel x y => if x < width ∧ y < height then none else some ⟨x, y⟩
  | _ => none

def Interpreter.Operation.offScreen? : Operation → Option OffScreen
  | .machine (.screen operation) => operation.offScreen?
  | _ => none

/-- The instruction draws a random word. -/
def Instruction.usesChance : Instruction → Bool
  | .random _ _ => true
  | _ => false

namespace Outcome

def isFault : Outcome → Bool
  | .fault _ => true
  | _ => false

/-- An instruction that draws a random word was executed. -/
def usesChance : Outcome → Bool
  | .executed i => i.usesChance
  | _ => false

end Outcome

namespace Turn

/-- What became of the instruction, if the operation carried one out. -/
def outcome? (t : Turn) : Option Outcome :=
  match t.answer with
  | .outcome outcome => some outcome
  | _ => none

def isFault (t : Turn) : Bool := t.outcome?.any Outcome.isFault

def usesChance (t : Turn) : Bool := t.outcome?.any Outcome.usesChance

end Turn

/-- The turns after the last restart. -/
def sinceRestart (turns : List Turn) : List Turn :=
  turns.rtakeWhile fun t => !t.operation.restarts

/-- A further turn restarts the machine or belongs to the turns since the last restart. -/
theorem sinceRestart_concat (turns : List Turn) (t : Turn) :
    sinceRestart (turns ++ [t]) =
      if t.operation.restarts then [] else sinceRestart turns ++ [t] := by
  rw [sinceRestart, List.rtakeWhile_concat]
  cases t.operation.restarts <;> rfl

namespace Interpreter

def turn (c : Interpreter) (operation : Operation) : Turn :=
  ⟨c.machine.pc, c.machine.keypad, operation, (c.respond operation).1⟩

@[simp] theorem turn_place (c : Interpreter) (operation : Operation) :
    (c.turn operation).place = c.machine.pc := rfl

@[simp] theorem turn_keypad (c : Interpreter) (operation : Operation) :
    (c.turn operation).keypad = c.machine.keypad := rfl

@[simp] theorem turn_operation (c : Interpreter) (operation : Operation) :
    (c.turn operation).operation = operation := rfl

/-- The interpreter after some operations. -/
def after (c : Interpreter) (operations : List Operation) : Interpreter :=
  operations.foldl (fun c operation => (c.respond operation).2) c

/-- The record of some operations. -/
def turns (c : Interpreter) : List Operation → List Turn
  | [] => []
  | operation :: rest => c.turn operation :: (c.respond operation).2.turns rest

@[simp] theorem after_nil (c : Interpreter) : c.after [] = c := rfl

@[simp] theorem after_cons (c : Interpreter) (operation : Operation) (rest : List Operation) :
    c.after (operation :: rest) = (c.respond operation).2.after rest := rfl

@[simp] theorem after_append (c : Interpreter) (first second : List Operation) :
    c.after (first ++ second) = (c.after first).after second :=
  List.foldl_append

theorem after_concat (c : Interpreter) (operations : List Operation) (operation : Operation) :
    c.after (operations ++ [operation]) = ((c.after operations).respond operation).2 := by
  simp

@[simp] theorem turns_append (c : Interpreter) (first second : List Operation) :
    c.turns (first ++ second) = c.turns first ++ (c.after first).turns second := by
  induction first generalizing c with
  | nil => rfl
  | cons operation rest inductionHypothesis =>
      simp only [List.cons_append, turns, inductionHypothesis, after_cons]

theorem turns_concat (c : Interpreter) (operations : List Operation) (operation : Operation) :
    c.turns (operations ++ [operation]) =
      c.turns operations ++ [(c.after operations).turn operation] := by
  rw [turns_append]
  rfl

/-- The interpreter is fresh from a setup. -/
def Built (c : Interpreter) : Prop :=
  ∃ (setup : Setup) (entropy : Cipher.Key), setup.build entropy = .ok c

end Interpreter

end ChipEight
