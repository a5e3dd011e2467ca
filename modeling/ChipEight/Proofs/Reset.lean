/-
Module: ChipEight.Proofs.Reset
Purpose: What a reset brings back and what it leaves. Through a session the program and the dialect of
  an interpreter stay, and the font changes with the fonts that are loaded and with nothing else. So
  a reset makes the machine of the build again, with the font that was loaded last; only the
  generator goes on where it was, and it is looked at by the random instruction alone.
Main exports: lastFont?, Interpreter.Built.reset_after, Interpreter.withGenerator,
  Interpreter.respond_withGenerator, Interpreter.session_withGenerator_of_either
-/
import ChipEight.Proofs.FreshMachine

namespace ChipEight

open Interpreter (Operation)

namespace Turn

/-- The font that a turn loaded, if it loaded one. -/
def loadedFont? (t : Turn) : Option Font :=
  match t.operation, t.answer with
  | .machine (.loadFont bytes), .machine .loaded => Font.ofBytes? bytes
  | _, _ => none

end Turn

/-- The font that was loaded last, if one was loaded. -/
def lastFont? (turns : List Turn) : Option Font :=
  (turns.filterMap Turn.loadedFont?).getLast?

theorem lastFont?_concat (turns : List Turn) (t : Turn) :
    lastFont? (turns ++ [t]) = t.loadedFont?.or (lastFont? turns) := by
  rw [lastFont?, List.filterMap_append]
  cases loaded : t.loadedFont? <;> simp [lastFont?, loaded]

namespace Interpreter

variable {c c' e : Interpreter} {outcome : Outcome} {operation : Operation} {g : Generator}

/-! ### What stays through a session -/

/-- The program for resets and the dialect are the same. -/
structure SameSettings (c c' : Interpreter) : Prop where
  program : c'.program = c.program
  dialect : c'.dialect = c.dialect

theorem sameSettings_of_execute (ran : c.execute = (outcome, c')) : SameSettings c c' := by
  cases executes_of_execute ran <;> exact ⟨rfl, rfl⟩

/-- A reset changes the machine and the count of faults at most. -/
theorem frame_of_reset (c : Interpreter) :
    ∃ machine faults, (c.respond .reset).2 = { c with machine, faults } := by
  rw [respond]
  split
  case h_1 c' restored =>
    obtain ⟨machine, -, restored⟩ := Except.bind_eq_ok.mp restored
    cases restored
    exact ⟨_, _, rfl⟩
  case h_2 => exact ⟨_, _, rfl⟩

/-- No operation changes the program for resets or the dialect. -/
theorem sameSettings_respond (c : Interpreter) (operation : Operation) :
    SameSettings c (c.respond operation).2 := by
  cases operation with
  | machine | fetch | tick => exact ⟨rfl, rfl⟩
  | execute => exact sameSettings_of_execute rfl
  | step =>
      have same : SameSettings c.fetch c.step.2 := sameSettings_of_execute rfl
      exact ⟨same.program, same.dialect⟩
  | reset =>
      obtain ⟨machine, faults, restored⟩ := c.frame_of_reset
      rw [restored]
      exact ⟨rfl, rfl⟩

theorem sameSettings_after (c : Interpreter) (operations : List Operation) :
    SameSettings c (c.after operations) := by
  induction operations generalizing c with
  | nil => exact ⟨rfl, rfl⟩
  | cons operation rest inductionHypothesis =>
      have first := sameSettings_respond c operation
      have others := inductionHypothesis (c.respond operation).2
      exact ⟨others.program.trans first.program, others.dialect.trans first.dialect⟩

/-! ### The font -/

theorem font_of_execute (ran : c.execute = (outcome, c')) : c'.machine.font = c.machine.font := by
  cases executes_of_execute ran with
  | unknown | refused => rfl
  | carried decoded carried => exact (Machine.frame_of_carryOut carried).font

/-- The font is the one that the turn loaded, or the one before. -/
theorem font_respond (wellFormed : c.WellFormed) (operation : Operation) :
    (c.respond operation).2.machine.font =
      (c.turn operation).loadedFont?.getD c.machine.font := by
  cases operation with
  | machine operation =>
      cases operation with
      | loadFont bytes =>
          rw [turn, Turn.loadedFont?, respond, Machine.perform, Machine.loadFont]
          cases accepted : Font.ofBytes? bytes with
          | none => rfl
          | some font => simp [Machine.settle, accepted]
      | loadProgram image =>
          simp only [respond, Machine.perform, Machine.loadProgram]
          split <;> rfl
      | _ => rfl
  | fetch | tick => rfl
  | execute => exact font_of_execute rfl
  | step => exact font_of_execute (c := c.fetch) rfl
  | reset =>
      rw [respond, wellFormed.reset]
      rfl

/-- The font is the one that was loaded last, or that of the build. -/
theorem Built.font_after (built : c.Built) (history : List Operation) :
    (c.after history).machine.font = (lastFont? (c.turns history)).getD c.machine.font := by
  induction history using List.reverseRecOn with
  | nil => rfl
  | append_singleton history operation inductionHypothesis =>
      rw [after_concat, turns_concat, lastFont?_concat,
        font_respond (built.wellFormed_after history), inductionHypothesis]
      cases (Turn.loadedFont? _) <;> rfl

/-! ### Resets -/

/-- The interpreter with another generator. -/
def withGenerator (c : Interpreter) (g : Generator) : Interpreter := { c with generator := g }

/-- After any session a reset succeeds. It makes the machine of the build again, with the font that
    was loaded last, and keeps the generator. -/
theorem Built.reset_after (built : c.Built) (history : List Operation) :
    (c.after history).reset = .ok ({ c with
      machine := c.machine.refont ((lastFont? (c.turns history)).getD c.machine.font) }.withGenerator
        (c.after history).generator) := by
  have same := sameSettings_after c history
  have unfaulted : c.faults = 0 := by
    obtain ⟨setup, entropy, built⟩ := built
    exact (Setup.build_eq_ok built).2.2.2
  rw [(built.wellFormed_after history).reset, ← built.font_after history, built.machine_eq_fresh,
    Machine.refont_fresh, same.program, withGenerator, unfaulted, ← same.dialect, ← same.program]
  rfl

/-- If no font was loaded, a reset leaves nothing different from the build but the generator. -/
theorem Built.reset_of_unfonted (built : c.Built) {history : List Operation}
    (unfonted : lastFont? (c.turns history) = none) :
    (c.after history).reset = .ok (c.withGenerator (c.after history).generator) := by
  have kept : c.machine.refont c.machine.font = c.machine := by
    rw [built.machine_eq_fresh]
    exact Machine.refont_fresh _ _ _
  rw [built.reset_after history, unfonted, Option.getD_none, kept]

/-! ### Runs without chance -/

/-- Nothing but the random instruction draws a word. -/
theorem noiseFor_of_ne {i : Instruction} (notRandom : ∀ x nn, i ≠ .random x nn) (g : Generator) :
    g.noiseFor i = (0, g) := by
  cases i with
  | random x nn => exact absurd rfl (notRandom x nn)
  | _ => rfl

/-- An execution that is not of a random instruction does not depend on the generator. -/
theorem execute_withGenerator (calm : ∀ x nn, c.execute.1 ≠ .executed (.random x nn))
    (g : Generator) :
    (c.withGenerator g).execute = (c.execute.1, c.execute.2.withGenerator g) := by
  cases decoded : Instruction.decode c.machine.opcode with
  | none =>
      rw [execute, withGenerator, execute, decoded]
      rfl
  | some i =>
      have ran : c.execute = c.perform i := by rw [execute, decoded]
      have ranOther : (c.withGenerator g).execute = (c.withGenerator g).perform i := by
        rw [execute, withGenerator, decoded]
      have notRandom : ∀ x nn, i ≠ .random x nn := by
        rintro x nn rfl
        rw [ran] at calm
        exact calm x nn rfl
      have quiet := noiseFor_of_ne notRandom
      rw [ran, ranOther]
      cases carried : c.machine.carryOut c.dialect 0 i with
      | ok result => simp only [perform, withGenerator, quiet, carried]
      | error f => simp only [perform, withGenerator, quiet, carried, fail]

theorem reset_withGenerator (c : Interpreter) (g : Generator) :
    (c.withGenerator g).respond .reset =
      ((c.respond .reset).1, (c.respond .reset).2.withGenerator g) := by
  rw [respond, respond, reset, reset, withGenerator]
  cases c.machine.restart.loadProgram c.program <;> rfl

/-- A turn that executes no random instruction does not depend on the generator. -/
theorem respond_withGenerator (calm : (c.turn operation).usesChance = false) (g : Generator) :
    (c.withGenerator g).respond operation =
      ((c.respond operation).1, (c.respond operation).2.withGenerator g) := by
  have notRandom : ∀ e, c.primed? operation = some e →
      ∀ x nn, e.execute.1 ≠ .executed (.random x nn) := by
    intro e primed x nn random
    rw [Turn.usesChance, outcome?_of_primed primed, random] at calm
    cases calm
  cases operation with
  | machine | fetch | tick => rfl
  | reset => exact reset_withGenerator c g
  | execute =>
      have ran := execute_withGenerator (notRandom _ rfl) g
      rw [respond, ran]
      rfl
  | step =>
      have ran := execute_withGenerator (notRandom _ rfl) g
      have stepped : (c.withGenerator g).respond .step =
          (.outcome (c.fetch.withGenerator g).execute.1, (c.fetch.withGenerator g).execute.2) := rfl
      rw [stepped, ran]
      rfl

/-- A session that executes no random instruction does not depend on the generator. -/
theorem session_withGenerator (g : Generator) {operations : List Operation}
    (calm : ∀ t ∈ c.turns operations, t.usesChance = false) :
    (c.withGenerator g).turns operations = c.turns operations ∧
      (c.withGenerator g).after operations = (c.after operations).withGenerator g := by
  induction operations generalizing c with
  | nil => exact ⟨rfl, rfl⟩
  | cons operation rest inductionHypothesis =>
      rw [turns] at calm
      obtain ⟨calmFirst, calmRest⟩ := List.forall_mem_cons.mp calm
      have first := respond_withGenerator calmFirst g
      obtain ⟨sameTurns, sameAfter⟩ := inductionHypothesis calmRest
      rw [turns, turns, after_cons, after_cons, turn, turn, first, sameTurns, sameAfter]
      exact ⟨rfl, rfl⟩

/-- It is enough that one of two sessions with different generators executes no random instruction:
    then the other one executes none either. -/
theorem session_withGenerator_of_either {g : Generator} {operations : List Operation}
    (calm : (∀ t ∈ c.turns operations, t.usesChance = false) ∨
      ∀ t ∈ (c.withGenerator g).turns operations, t.usesChance = false) :
    (c.withGenerator g).turns operations = c.turns operations ∧
      (c.withGenerator g).after operations = (c.after operations).withGenerator g := by
  rcases calm with calm | calm
  · exact session_withGenerator g calm
  · obtain ⟨sameTurns, -⟩ := session_withGenerator c.generator calm
    change c.turns operations = _ at sameTurns
    rw [← sameTurns] at calm
    exact session_withGenerator g calm

end Interpreter

end ChipEight
