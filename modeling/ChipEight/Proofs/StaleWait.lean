/-
Module: ChipEight.Proofs.StaleWait
Purpose: Where the memory of a key wait comes from. Over every session the machine remembers the
  looks since the last restart or the last key that was taken. So a wait that was left behind is
  remembered as well, and the next wait takes it up: its first look may take a key. Only a load can
  leave a wait behind, by writing over the word that waits; where none does, every wait begins with
  waiting.
Main exports: looks, lastOutcome?, Interpreter.due?, Interpreter.remembers_after,
  Interpreter.Abandons, Interpreter.first_look_waits_iff
-/
import ChipEight.Proofs.KeyWait

namespace ChipEight

open Interpreter (Operation)

namespace Turn

def waited (t : Turn) : Bool := t.outcome? = some .waiting

/-- The turn took a key, which ended a wait. -/
def tookKey (t : Turn) : Bool :=
  match t.outcome? with
  | some (.executed (.awaitKey _)) => true
  | _ => false

end Turn

/-- The keypads at the looks since the last restart and the last key that was taken. -/
def looks (turns : List Turn) : List Keypad :=
  (((sinceRestart turns).rtakeWhile fun t => !t.tookKey).filter Turn.waited).map Turn.keypad

/-- What became of the last instruction since the last restart. -/
def lastOutcome? (turns : List Turn) : Option Outcome :=
  ((sinceRestart turns).filterMap Turn.outcome?).getLast?

theorem looks_concat (turns : List Turn) (t : Turn) :
    looks (turns ++ [t]) =
      if t.operation.restarts || t.tookKey then []
      else if t.waited then looks turns ++ [t.keypad] else looks turns := by
  rw [looks, sinceRestart_concat]
  cases t.operation.restarts
  · simp only [Bool.false_eq_true, if_false, List.rtakeWhile_concat, Bool.false_or]
    cases t.tookKey
    · cases waited : t.waited <;> simp [looks, waited]
    · rfl
  · rfl

theorem lastOutcome?_concat (turns : List Turn) (t : Turn) :
    lastOutcome? (turns ++ [t]) =
      if t.operation.restarts then none else t.outcome?.or (lastOutcome? turns) := by
  rw [lastOutcome?, sinceRestart_concat]
  cases t.operation.restarts
  · cases outcome : t.outcome? <;> simp [lastOutcome?, outcome]
  · rfl

namespace Interpreter

variable {c c' e : Interpreter} {outcome : Outcome} {operation : Operation} {x : Nibble}

/-- The instruction that an operation is going to carry out. -/
def due? (c : Interpreter) (operation : Operation) : Option Instruction :=
  (c.primed? operation).bind fun e => Instruction.decode e.machine.opcode

theorem due?_of_primed (primed : c.primed? operation = some e) :
    c.due? operation = Instruction.decode e.machine.opcode := by
  rw [due?, primed, Option.bind_some]

/-- A turn of another instruction is no look, and takes no key. -/
theorem looks_of_other (turns : List Turn) (kept : operation.restarts = false)
    (other : ∀ x, c.due? operation ≠ some (.awaitKey x)) :
    looks (turns ++ [c.turn operation]) = looks turns ∧
      (c.respond operation).2.machine.keysHeld? = c.machine.keysHeld? ∧
      (c.turn operation).outcome? ≠ some .waiting := by
  rw [looks_concat, turn_operation, kept]
  cases primed : c.primed? operation with
  | some e =>
      rw [due?_of_primed primed] at other
      have ran : e.execute = (e.execute.1, e.execute.2) := rfl
      obtain ⟨same, notWaiting, notTaken⟩ := keysHeld?_of_execute ran other
      have outcome := outcome?_of_primed primed
      have unwaited : (c.turn operation).waited = false := by
        simpa [Turn.waited, outcome] using notWaiting
      have untaken : (c.turn operation).tookKey = false := by
        rw [Turn.tookKey, outcome]
        split
        case h_1 x taken => exact absurd (Option.some.inj taken) (notTaken x)
        case h_2 => rfl
      rw [unwaited, untaken, respond_of_primed primed, same,
        (sameControl_of_primed primed).keysHeld?, outcome]
      refine ⟨rfl, rfl, ?_⟩
      intro waiting
      exact notWaiting (Option.some.inj waiting)
  | none =>
      have outcome := outcome?_of_unprimed primed
      rw [Turn.tookKey, Turn.waited, outcome, (sameControl_respond primed kept).keysHeld?]
      exact ⟨rfl, rfl, nofun⟩

/-- A turn that reaches a wait takes the least key that counts, and forgets the looks; or no key
    counts, and it is one look more. -/
theorem respond_awaitKey {turns : List Turn} (due : c.due? operation = some (.awaitKey x))
    (remembers : Remembers (looks turns) c.machine.keysHeld?) :
    ((∃ key, Keypad.Counts (looks turns) c.machine.keypad key) ∧
      (c.respond operation).1 = .outcome (.executed (.awaitKey x)) ∧
      looks (turns ++ [c.turn operation]) = [] ∧
      (c.respond operation).2.machine.keysHeld? = none) ∨
    ((∀ key, ¬ Keypad.Counts (looks turns) c.machine.keypad key) ∧
      (c.respond operation).1 = .outcome .waiting ∧
      Remembers (looks (turns ++ [c.turn operation]))
        (c.respond operation).2.machine.keysHeld?) := by
  obtain ⟨e, primed, decoded⟩ := Option.bind_eq_some_iff.mp due
  have kept : operation.restarts = false := by
    cases operation <;> first | rfl | cases primed
  have outcome := outcome?_of_primed primed
  rw [looks_concat, turn_operation, kept, respond_of_primed primed, Turn.tookKey, Turn.waited,
    outcome, turn_keypad, ← keypad_of_primed primed]
  rw [← (sameControl_of_primed primed).keysHeld?] at remembers
  rcases execute_awaitKey decoded remembers with
    ⟨key, counted, -, ran⟩ | ⟨none, held, remembered, ran⟩
  · rw [ran]
    exact .inl ⟨⟨key, counted⟩, rfl, rfl, rfl⟩
  · rw [ran]
    exact .inr ⟨none, rfl, remembered⟩

/-- Through a turn the machine remembers the looks since the last restart or taken key. -/
theorem remembers_respond {turns : List Turn} (wellFormed : c.WellFormed)
    (remembers : Remembers (looks turns) c.machine.keysHeld?) (operation : Operation) :
    Remembers (looks (turns ++ [c.turn operation])) (c.respond operation).2.machine.keysHeld? := by
  cases restarting : operation.restarts with
  | true =>
      -- A restart forgets the looks, a wait adds to them or ends with them, and all else keeps them.
      obtain ⟨memory, restarted⟩ := machine_of_restart wellFormed restarting
      rw [looks_concat, turn_operation, restarting, restarted]
      rfl
  | false =>
      by_cases awaiting : ∃ x, c.due? operation = some (.awaitKey x)
      · obtain ⟨x, due⟩ := awaiting
        rcases respond_awaitKey due remembers with ⟨-, -, none, ended⟩ | ⟨-, -, remembered⟩
        · rw [none, ended]
          rfl
        · exact remembered
      · obtain ⟨sameLooks, sameHeld, -⟩ :=
          looks_of_other turns restarting (not_exists.mp awaiting)
        rw [sameLooks, sameHeld]
        exact remembers

/-- Over every session the machine remembers the looks since the last restart or taken key. -/
theorem remembers_after (built : c.Built) (operations : List Operation) :
    Remembers (looks (c.turns operations)) (c.after operations).machine.keysHeld? := by
  induction operations using List.reverseRecOn with
  | nil =>
      obtain ⟨memory, font, initial⟩ := built.machine_eq
      rw [after_nil, initial]
      rfl
  | append_singleton operations operation inductionHypothesis =>
      rw [after_concat, turns_concat]
      exact remembers_respond (built.wellFormed_after operations) inductionHypothesis operation

/-! ### Waits that are left behind -/

/-- A load leaves a wait behind: the program was waiting, and after the load the word at the program
    counter is no wait any more. -/
def Abandons (c : Interpreter) (before : List Operation) (load : Operation) : Prop :=
  load.loads = true ∧ lastOutcome? (c.turns before) = some .waiting ∧
    ∀ x, (c.after (before ++ [load])).due? .step ≠ some (.awaitKey x)

/-- While a wait goes on it stands at the program counter, and while none does, no look is remembered.
    -/
structure Undisturbed (c : Interpreter) (turns : List Turn) : Prop where
  at_wait : lastOutcome? turns = some .waiting → ∃ x, c.due? .step = some (.awaitKey x)
  no_looks : lastOutcome? turns ≠ some .waiting → looks turns = []

theorem due?_step (c : Interpreter) :
    c.due? .step = Instruction.decode (c.machine.memory.readWord c.machine.pc) := rfl

/-- A step leaves no wait behind: it stays at a wait, ends it, or carries out something else, and then
    no wait was going on. -/
theorem Undisturbed.step {turns : List Turn} (undisturbed : c.Undisturbed turns)
    (remembers : Remembers (looks turns) c.machine.keysHeld?) :
    c.step.2.Undisturbed (turns ++ [c.turn .step]) := by
  have outcome : (c.turn .step).outcome? = some c.step.1 := rfl
  have last : lastOutcome? (turns ++ [c.turn .step]) = some c.step.1 := by
    rw [lastOutcome?_concat, outcome]
    rfl
  by_cases awaiting : ∃ x, c.due? .step = some (.awaitKey x)
  · obtain ⟨x, due⟩ := awaiting
    rcases step_awaitKey due remembers with ⟨key, -, -, stepped⟩ | ⟨-, held, -, stepped⟩
    -- A key that was taken ends the wait together with its looks; a wait that goes on has not moved.
    · refine ⟨?_, fun _ => ?_⟩
      · rw [last, stepped]
        nofun
      · rw [looks_concat, Turn.tookKey, outcome, stepped]
        rfl
    · refine ⟨fun _ => ⟨x, ?_⟩, fun notWaiting => ?_⟩
      · rw [stepped]
        exact due
      · rw [last, stepped] at notWaiting
        exact absurd rfl notWaiting
  · have other := not_exists.mp awaiting
    obtain ⟨sameLooks, -, notWaiting⟩ := looks_of_other turns rfl other
    rw [outcome] at notWaiting
    refine ⟨?_, fun _ => ?_⟩
    · rw [last]
      exact fun waiting => absurd waiting notWaiting
    · rw [sameLooks]
      exact undisturbed.no_looks fun waiting => awaiting (undisturbed.at_wait waiting)

/-- An operation between two steps leaves no wait behind, unless it is a load that abandons one. -/
theorem Undisturbed.pass {turns : List Turn} (undisturbed : c.Undisturbed turns)
    (unprimed : c.primed? operation = none) (kept : operation.restarts = false)
    (minded : ¬ (operation.loads = true ∧ lastOutcome? turns = some .waiting ∧
      ∀ x, (c.respond operation).2.due? .step ≠ some (.awaitKey x))) :
    (c.respond operation).2.Undisturbed (turns ++ [c.turn operation]) := by
  have last : lastOutcome? (turns ++ [c.turn operation]) = lastOutcome? turns := by
    rw [lastOutcome?_concat, turn_operation, kept, outcome?_of_unprimed unprimed]
    rfl
  have undue : ∀ x, c.due? operation ≠ some (.awaitKey x) := by
    rw [due?, unprimed]
    nofun
  refine ⟨?_, ?_⟩
  · rw [last]
    intro waiting
    cases loading : operation.loads with
    | true =>
        by_contra gone
        exact minded ⟨loading, waiting, not_exists.mp gone⟩
    | false =>
        rw [due?_step, memory_respond unprimed kept loading, (sameControl_respond unprimed kept).pc]
        exact undisturbed.at_wait waiting
  · rw [last, (looks_of_other turns kept undue).1]
    exact undisturbed.no_looks

/-- A session of fetching steps in which no load abandons a wait leaves none behind. -/
theorem undisturbed_after (built : c.Built) (history : List Operation)
    (fetched : .execute ∉ history)
    (minded : ∀ before load rest, history = before ++ load :: rest → ¬ c.Abandons before load) :
    (c.after history).Undisturbed (c.turns history) := by
  induction history using List.reverseRecOn with
  | nil => exact ⟨nofun, fun _ => rfl⟩
  | append_singleton history operation inductionHypothesis =>
      have undisturbed := inductionHypothesis
        (fun member => fetched (List.mem_append_left _ member))
        (fun before load rest split => minded before load (rest ++ [operation]) (by simp [split]))
      have mindedLast := minded history operation [] rfl
      rw [Abandons, after_concat] at mindedLast
      rw [after_concat, turns_concat]
      cases restarting : operation.restarts with
      | true =>
          refine ⟨?_, fun _ => ?_⟩
          · rw [lastOutcome?_concat, turn_operation, restarting]
            nofun
          · rw [looks_concat, turn_operation, restarting]
            rfl
      | false =>
          cases primed : (c.after history).primed? operation with
          | none => exact undisturbed.pass primed restarting mindedLast
          | some e =>
              cases operation with
              -- A step fetches the word that stands at its place. An execution without a fetch would carry out
              -- a word that need not stand there any more.
              | step => exact undisturbed.step (remembers_after built history)
              | execute => exact absurd (by simp) fetched
              | fetch | tick | machine | reset => cases primed

/-- Where a wait begins with waiting. An operation reaches a wait for a key, and the instruction
    before it since the last restart, if there was one, was not waiting. Then it waits exactly if no
    key counts for the looks since the last restart or taken key: those looks belong to a wait that
    was left behind. In a session of fetching steps there are none of them, and the operation
    waits, unless a load took away the word of a program that was waiting. -/
theorem first_look_waits_iff (built : c.Built) (history : List Operation)
    (due : (c.after history).due? operation = some (.awaitKey x))
    (begins : lastOutcome? (c.turns history) ≠ some .waiting) :
    (((c.after history).respond operation).1 = .outcome .waiting ↔
      ∀ key, ¬ Keypad.Counts (looks (c.turns history)) (c.after history).machine.keypad key) ∧
    (.execute ∉ history →
      (∀ before load rest, history = before ++ load :: rest → ¬ c.Abandons before load) →
      looks (c.turns history) = [] ∧
        ((c.after history).respond operation).1 = .outcome .waiting) := by
  have ended : ((c.after history).respond operation).1 = .outcome .waiting ↔
      ∀ key, ¬ Keypad.Counts (looks (c.turns history)) (c.after history).machine.keypad key := by
    rcases respond_awaitKey due (remembers_after built history) with
      ⟨⟨key, counted⟩, took, -⟩ | ⟨none, waited, -⟩
    · rw [took]
      exact iff_of_false nofun fun none => none key counted
    · exact iff_of_true waited none
  refine ⟨ended, fun fetched minded => ?_⟩
  have unlooked := (undisturbed_after built history fetched minded).no_looks begins
  refine ⟨unlooked, ended.mpr fun key => ?_⟩
  simp [unlooked, Keypad.Counts]

/-- A program with two waits, of which the second begins with a key that is still down. -/
theorem first_look_waits_second :
    (((ofProgram [0xF0, 0x0A, 0xF1, 0x0A]).after [.step, .machine (.setKey 5 true), .step]).respond
      .step).1 = .outcome .waiting := by
  obtain ⟨due, begins⟩ :
      ((ofProgram [0xF0, 0x0A, 0xF1, 0x0A]).after [.step, .machine (.setKey 5 true), .step]).due?
        .step = some (.awaitKey 1) ∧
      lastOutcome? ((ofProgram [0xF0, 0x0A, 0xF1, 0x0A]).turns
        [.step, .machine (.setKey 5 true), .step]) ≠ some .waiting := by
    decide +kernel
  have unloaded : ∀ operation ∈ [Operation.step, .machine (.setKey 5 true), .step],
      operation.loads = false := by decide
  refine ((first_look_waits_iff (built_ofProgram (by decide)) _ due begins).2 (by decide) ?_).2
  intro before load rest split abandons
  have loads := unloaded load (by rw [split]; simp)
  rw [abandons.1] at loads
  cases loads

/-- A host who waits for a key, loads another program over the wait, runs its first instruction and
    holds a key. -/
def overwrittenWait : List Operation :=
  [.step, .machine (.loadProgram [0x60, 0x00, 0xF1, 0x0A]), .step, .machine (.setKey 5 true)]

/-- The wait of the first program is left behind, and the wait of the second one takes the key at its
    first look. -/
theorem first_look_takes_key :
    (ofProgram [0xF0, 0x0A]).Built ∧
    ((ofProgram [0xF0, 0x0A]).after overwrittenWait).due? .step = some (.awaitKey 1) ∧
    lastOutcome? ((ofProgram [0xF0, 0x0A]).turns overwrittenWait) = some (.executed (.loadByte 0 0)) ∧
    (((ofProgram [0xF0, 0x0A]).after overwrittenWait).respond .step).1 =
      .outcome (.executed (.awaitKey 1)) := by
  refine ⟨built_ofProgram (by decide), ?_⟩
  decide +kernel

end Interpreter

end ChipEight
