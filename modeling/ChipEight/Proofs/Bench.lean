/-
Module: ChipEight.Proofs.Bench
Purpose: Several interpreters from one setup. A host builds interpreters one after the other and deals
  with each of them in between, in any order. Every one of them goes through the operations that are
  meant for it as if it were alone, whatever is done to the others and however many are built.
Main exports: Bench, Bench.Act, Bench.perform, Bench.after, Bench.turns, Bench.RunsAlone,
  Bench.runsAlone, Bench.runsAlone_of_build
-/
import ChipEight.Proofs.Session

namespace ChipEight

open Interpreter (Operation)

/-- A setup, and the interpreters that were built from it, in the order of their builds. -/
structure Bench where
  setup : Setup
  built : List Interpreter

namespace Bench

/-- A bench before the first build. -/
def empty (setup : Setup) : Bench := ⟨setup, []⟩

/-- What a host does. -/
inductive Act where
  /-- Build one more interpreter. -/
  | build (entropy : Cipher.Key)
  /-- Deal with the interpreter of a number, counted from zero. -/
  | operate (number : Nat) (operation : Operation)

/-- The operation of an act that is meant for an interpreter. -/
def Act.operationFor? (number : Nat) : Act → Option Operation
  | .operate other operation => if other = number then some operation else none
  | .build _ => none

/-- Carries out an act. A build that fails leaves the bench as it is, and so does an operation for an
    interpreter that is not there. -/
def perform (b : Bench) : Act → Bench
  | .build entropy =>
    match b.setup.build entropy with
    | .ok c => { b with built := b.built ++ [c] }
    | .error _ => b
  | .operate number operation =>
    { b with built := b.built.modify number fun c => (c.respond operation).2 }

/-- The bench after some acts. -/
def after (b : Bench) (acts : List Act) : Bench := acts.foldl perform b

/-- The turns that the interpreter of a number takes in the course of some acts. -/
def turns (b : Bench) (number : Nat) : List Act → List Turn
  | [] => []
  | act :: rest =>
    match b.built[number]?, act.operationFor? number with
    | some c, some operation => c.turn operation :: (b.perform act).turns number rest
    | _, _ => (b.perform act).turns number rest

variable {b : Bench} {number : Nat} {c : Interpreter} {acts : List Act}

theorem setup_perform (b : Bench) (act : Act) : (b.perform act).setup = b.setup := by
  cases act with
  | build entropy =>
      rw [perform]
      split <;> rfl
  | operate => rfl

/-- No act changes the setup. -/
theorem setup_after (b : Bench) (acts : List Act) : (b.after acts).setup = b.setup := by
  induction acts generalizing b with
  | nil => rfl
  | cons act rest inductionHypothesis => exact (inductionHypothesis _).trans (b.setup_perform act)

/-- An act changes an interpreter by the operation that is meant for it, and by nothing else. -/
theorem getElem?_perform (act : Act) (stands : b.built[number]? = some c) :
    (b.perform act).built[number]? = some (c.after (act.operationFor? number).toList) := by
  cases act with
  | build entropy =>
      rw [perform]
      split
      case h_1 new _ =>
        have inside := (List.getElem?_eq_some_iff.mp stands).1
        exact (List.getElem?_append_left inside).trans stands
      case h_2 => exact stands
  | operate other operation =>
      rw [perform, List.getElem?_modify, stands, Act.operationFor?]
      by_cases meant : other = number <;> simp [meant]

/-- The interpreter of a number runs as `c` alone: it takes the turns that `c` takes through the
    operations that are meant for it, and is then what `c` is after them. -/
structure RunsAlone (b : Bench) (number : Nat) (c : Interpreter) (acts : List Act) : Prop where
  turns : b.turns number acts = c.turns (acts.filterMap (Act.operationFor? number))
  stands : (b.after acts).built[number]? =
    some (c.after (acts.filterMap (Act.operationFor? number)))

/-- Every interpreter on a bench runs alone. -/
theorem runsAlone (acts : List Act) (stands : b.built[number]? = some c) :
    b.RunsAlone number c acts := by
  induction acts generalizing b c with
  | nil => exact ⟨rfl, stands⟩
  | cons act rest inductionHypothesis =>
      have next := inductionHypothesis (getElem?_perform act stands)
      cases meant : act.operationFor? number with
      | none =>
          rw [meant] at next
          refine ⟨?_, ?_⟩
          · simpa [turns, stands, meant] using next.turns
          · simpa [after, meant] using next.stands
      | some operation =>
          rw [meant] at next
          refine ⟨?_, ?_⟩
          · simpa [turns, stands, meant, Interpreter.turns] using next.turns
          · simpa [after, meant] using next.stands

/-- A build that succeeds adds what it makes. -/
theorem built_perform_build {entropy : Cipher.Key} (made : b.setup.build entropy = .ok c) :
    (b.perform (.build entropy)).built = b.built ++ [c] := by
  simp only [perform, made]

/-- The interpreter that is built after some acts runs alone, whatever was done before. -/
theorem runsAlone_of_build {entropy : Cipher.Key} (made : b.setup.build entropy = .ok c)
    (earlier later : List Act) :
    (b.after (earlier ++ [.build entropy])).RunsAlone (b.after earlier).built.length c later := by
  rw [← setup_after b earlier] at made
  have added := built_perform_build made
  apply runsAlone
  rw [after, List.foldl_concat]
  exact (congrArg (·[_]?) added).trans List.getElem?_concat_length

end Bench

end ChipEight
