/-
Module: ChipEight.Proofs.Lockstep
Purpose: Two interpreters that go through one session together. Where related interpreters take the
  same turn and stay related, they do so through a whole session, provided that each of its
  operations meets the condition under which they do. The condition is asked of the first
  interpreter alone, at every operation as the session comes to it.
Main exports: Interpreter.Throughout, Interpreter.Lockstep, Interpreter.Throughout.lockstep
-/
import ChipEight.Proofs.Session

namespace ChipEight.Interpreter

/-- Every operation of a session finds the interpreter as `P` demands. -/
def Throughout (c : Interpreter) (P : Interpreter → Operation → Prop) : List Operation → Prop
  | [] => True
  | operation :: rest => P c operation ∧ (c.respond operation).2.Throughout P rest

instance Throughout.decidable {P : Interpreter → Operation → Prop}
    [∀ c operation, Decidable (P c operation)] :
    ∀ (c : Interpreter) (operations : List Operation), Decidable (c.Throughout P operations)
  | _, [] => .isTrue trivial
  | c, operation :: rest =>
    have := Throughout.decidable (P := P) (c.respond operation).2 rest
    inferInstanceAs (Decidable (P c operation ∧ (c.respond operation).2.Throughout P rest))

variable {P : Interpreter → Operation → Prop} {R : Interpreter → Interpreter → Prop}
  {c c' : Interpreter} {operations : List Operation}

/-- Two interpreters take the same turns through a session, and at every point of it they are
    related: before its first operation, between two of them and after the last one. -/
structure Lockstep (R : Interpreter → Interpreter → Prop) (c c' : Interpreter)
    (operations : List Operation) : Prop where
  turns : c'.turns operations = c.turns operations
  related : ∀ first, first <+: operations → R (c.after first) (c'.after first)

/-- Interpreters that keep in step through a turn whenever the operation meets the condition keep in
    step through a session whose operations all meet it. -/
theorem Throughout.lockstep (throughout : c.Throughout P operations)
    (turn : ∀ {c c' : Interpreter} {operation : Operation}, R c c' → P c operation →
      c'.turn operation = c.turn operation ∧ R (c.respond operation).2 (c'.respond operation).2)
    (related : R c c') : Lockstep R c c' operations := by
  induction operations generalizing c c' with
  | nil =>
      refine ⟨rfl, fun first begins => ?_⟩
      rw [List.prefix_nil.mp begins]
      exact related
  | cons operation rest inductionHypothesis =>
      obtain ⟨holds, later⟩ := throughout
      obtain ⟨sameTurn, next⟩ := turn related holds
      obtain ⟨sameTurns, relatedLater⟩ := inductionHypothesis later next
      refine ⟨?_, fun first begins => ?_⟩
      · rw [Interpreter.turns, Interpreter.turns, sameTurn, sameTurns]
      · rcases List.prefix_cons_iff.mp begins with rfl | ⟨others, rfl, beginsRest⟩
        · exact related
        · exact relatedLater others beginsRest

end ChipEight.Interpreter
