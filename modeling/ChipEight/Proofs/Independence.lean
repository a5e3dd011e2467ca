/-
Module: ChipEight.Proofs.Independence
Purpose: Steps that do not depend on what a host does beside them. A tick changes the timers and a key
  write the keypad, and few instructions have to do with either; all others do the same before the
  change as after it. So while no such instruction comes up, the order of steps and changes does not
  matter, and one order that is calm in this sense makes all others calm.
Main exports: Instruction.usesTimers, Instruction.looksAtKeys, Outcome.touches, Machine.Unnoticed,
  Machine.carryOut_shift, Interpreter.steps_alter, Interleaves, Interpreter.normal_of_interleaves,
  Interpreter.independent_operations_commute
-/
import ChipEight.Proofs.Faults

namespace ChipEight

open Interpreter (Operation)

/-! ### Kinds of instructions -/

namespace Instruction

/-- The instruction reads or sets a timer. -/
def usesTimers : Instruction → Bool
  | .loadDelay _ | .setDelay _ | .setSound _ => true
  | _ => false

/-- The instruction looks at the keypad. -/
def looksAtKeys : Instruction → Bool
  | .awaitKey _ | .skipIf (.keyDown _) | .skipIf (.keyUp _) => true
  | _ => false

end Instruction

/-- The step was one of an instruction of the kind, which was executed or waits for a key. -/
def Outcome.touches (kind : Instruction → Bool) : Outcome → Bool
  | .executed i => kind i
  | .waiting => kind (.awaitKey (lowNibble 0))
  | .fault _ => false

namespace Machine

/-! ### Changes of the timers and the keypad -/

/-- The machine with other timers and another keypad. -/
def shift (timers : UInt8 → UInt8) (keys : Keypad → Keypad) (m : Machine) : Machine :=
  { m with
    delayTimer := timers m.delayTimer
    soundTimer := timers m.soundTimer
    keypad := keys m.keypad }

variable {timers : UInt8 → UInt8} {keys : Keypad → Keypad} {t : Machine → Machine}
  {kind : Instruction → Bool} {i : Instruction}

theorem holds_shift (m : Machine) (condition : Condition)
    (looks : (Instruction.skipIf condition).looksAtKeys = true → keys = id) :
    condition.holds (m.shift timers keys) = condition.holds m := by
  cases condition with
  | keyDown x | keyUp x =>
      obtain rfl := looks rfl
      rfl
  | _ => rfl

theorem awaitKey_shift (m : Machine) (x : Nibble) :
    (m.shift timers id).awaitKey x = ((m.awaitKey x).1, (m.awaitKey x).2.shift timers id) := by
  simp only [awaitKey, shift, id]
  cases m.keypad.fresh? (m.keypad.meet (m.keysHeld?.getD m.keypad)) <;> rfl

/-- An instruction does the same with other timers and another keypad, if it has to do with those of
    them only that are not different. -/
theorem carryOut_shift (m : Machine) (d : Dialect) (noise : UInt8)
    (uses : i.usesTimers = true → timers = id) (looks : i.looksAtKeys = true → keys = id) :
    (m.shift timers keys).carryOut d noise i =
      (m.carryOut d noise i).map fun result => (result.1, result.2.shift timers keys) := by
  cases i with
  | loadDelay x | setDelay x | setSound x =>
      obtain rfl := uses rfl
      rfl
  | awaitKey x =>
      obtain rfl := looks rfl
      rw [carryOut, awaitKey_shift]
      rfl
  | skipIf condition =>
      rw [carryOut, holds_shift m condition looks]
      rfl
  | combine op x y => cases op <;> rfl
  | ret =>
      simp only [carryOut, shift]
      cases m.stack <;> rfl
  | call addr =>
      by_cases free : m.stack.length < stackDepth
      · simp [carryOut, shift, free, Except.map]
      · simp [carryOut, shift, free, Except.map]
  | _ => rfl

/-! ### Changes that are not noticed -/

/-- Nothing but instructions of the kind notices the change, and every other instruction can as well
    come before it. The kind does not depend on the register that awaits a key, and has no instruction
    that can fail. -/
structure Unnoticed (t : Machine → Machine) (kind : Instruction → Bool) : Prop where
  pc : ∀ m, (t m).pc = m.pc
  opcode : ∀ m, (t m).opcode = m.opcode
  fetch : ∀ m, (t m).fetch = t m.fetch
  move : ∀ m pc, { t m with pc } = t { m with pc }
  carryOut : ∀ m d noise i, kind i = false →
    (t m).carryOut d noise i = (m.carryOut d noise i).map fun result => (result.1, t result.2)
  awaitKey : ∀ x y, kind (.awaitKey x) = kind (.awaitKey y)
  call : ∀ addr, kind (.call addr) = false
  ret : kind .ret = false

/-- A tick is noticed by instructions that use the timers only. -/
theorem unnoticed_tick : Unnoticed tick Instruction.usesTimers where
  pc _ := rfl
  opcode _ := rfl
  fetch _ := rfl
  move _ _ := rfl
  carryOut m d noise i other := by
    change (m.shift countDown id).carryOut d noise i = _
    apply carryOut_shift m d noise
    · simp [other]
    · intro
      rfl
  awaitKey _ _ := rfl
  call _ := rfl
  ret := rfl

/-- A change of the keypad is noticed by instructions that look at it only. -/
theorem unnoticed_keys (keys : Keypad → Keypad) :
    Unnoticed (shift id keys) Instruction.looksAtKeys where
  pc _ := rfl
  opcode _ := rfl
  fetch _ := rfl
  move _ _ := rfl
  carryOut m d noise i other := by
    apply carryOut_shift m d noise
    · intro
      rfl
    · simp [other]
  awaitKey _ _ := rfl
  call _ := rfl
  ret := rfl

/-- The operation writes the keypad, or one key of it. -/
def Operation.writesKeys : Machine.Operation → Bool
  | .setKey _ _ | .setKeypad _ => true
  | _ => false

/-- A key write changes the keypad, and nothing else. -/
theorem perform_of_writesKeys {operation : Machine.Operation} (writes : operation.writesKeys = true) :
    ∃ keys, ∀ m : Machine, m.perform operation = (.done, m.shift id keys) := by
  cases operation with
  | setKey key down => exact ⟨fun k => k.set (lowNibble key.toNat) down, fun _ => rfl⟩
  | setKeypad keypad => exact ⟨fun _ => keypad, fun _ => rfl⟩
  | _ => cases writes

end Machine

namespace Interpreter

variable {c : Interpreter} {t : Machine → Machine} {kind : Instruction → Bool} {i : Instruction}
  {n k : Nat} {operations : List Operation}

/-! ### Steps after a change -/

/-- The interpreter with a changed machine. -/
def alter (t : Machine → Machine) (c : Interpreter) : Interpreter :=
  { c with machine := t c.machine }

/-- The outcome tells whether the word was one of the kind. -/
theorem touches_execute (unnoticed : Machine.Unnoticed t kind)
    (decoded : Instruction.decode c.machine.opcode = some i) :
    c.execute.1.touches kind = kind i := by
  generalize ran : c.execute = result
  obtain ⟨outcome, c'⟩ := result
  cases executes_of_execute ran with
  | unknown undecoded =>
      rw [decoded] at undecoded
      cases undecoded
  | refused decoded' refused =>
      rw [decoded] at decoded'
      cases decoded'
      rcases Machine.carryOut_eq_error_iff.mp refused with ⟨⟨addr, rfl⟩, -, -⟩ | ⟨rfl, -, -⟩
      · exact (unnoticed.call addr).symm
      · exact unnoticed.ret.symm
  | @carried _ flow m decoded' carried =>
      rw [decoded] at decoded'
      cases decoded'
      cases flow with
      | stay =>
          obtain ⟨x, rfl⟩ := Machine.awaitKey_of_stay carried
          exact unnoticed.awaitKey _ _
      | next | skip | jump => rfl

/-- A word that is no instruction is of no kind. -/
theorem touches_execute_of_undecoded (undecoded : Instruction.decode c.machine.opcode = none) :
    c.execute.1.touches kind = false := by
  rw [execute, undecoded]
  rfl

/-- Passing over a word is not noticed. -/
theorem fail_alter (unnoticed : Machine.Unnoticed t kind) (c : Interpreter) (f : Fault) :
    (c.alter t).fail f = ((c.fail f).1, (c.fail f).2.alter t) := by
  simp only [fail, alter, unnoticed.pc, unnoticed.move]

/-- A word of another kind does the same after the change as before it. -/
theorem execute_alter (unnoticed : Machine.Unnoticed t kind)
    (calm : c.execute.1.touches kind = false) :
    (c.alter t).execute = (c.execute.1, c.execute.2.alter t) := by
  have word : (c.alter t).machine.opcode = c.machine.opcode := unnoticed.opcode c.machine
  have place : (c.alter t).machine.pc = c.machine.pc := unnoticed.pc c.machine
  cases decoded : Instruction.decode c.machine.opcode with
  | none =>
      simp only [execute, word, place, decoded]
      exact fail_alter unnoticed c _
  | some i =>
      rw [touches_execute unnoticed decoded] at calm
      have same := unnoticed.carryOut c.machine c.dialect (c.generator.noiseFor i).1 i calm
      rw [execute, execute, word, decoded]
      simp only [perform, alter, same]
      cases c.machine.carryOut c.dialect (c.generator.noiseFor i).1 i with
      | ok result => simp only [Except.map, unnoticed.pc, unnoticed.move]
      | error f => exact fail_alter unnoticed c f

/-- The change of the machine does not make a step one of the kind, nor does it keep it from that. -/
theorem touches_step_alter (unnoticed : Machine.Unnoticed t kind) (c : Interpreter) :
    (c.alter t).step.1.touches kind = c.step.1.touches kind := by
  have word : (c.alter t).fetch.machine.opcode = c.fetch.machine.opcode := by
    rw [fetch, alter, unnoticed.fetch]
    exact unnoticed.opcode _
  rw [step, step]
  cases decoded : Instruction.decode c.fetch.machine.opcode with
  | none =>
      rw [touches_execute_of_undecoded decoded, touches_execute_of_undecoded (by rw [word, decoded])]
  | some i =>
      rw [touches_execute unnoticed decoded, touches_execute unnoticed (by rw [word, decoded])]

/-- A step of another kind does the same after the change as before it. -/
theorem step_alter (unnoticed : Machine.Unnoticed t kind) (calm : c.step.1.touches kind = false) :
    (c.alter t).step = (c.step.1, c.step.2.alter t) := by
  have fetched : (c.alter t).fetch = c.fetch.alter t := by
    rw [fetch, alter, unnoticed.fetch]
    rfl
  rw [step, fetched]
  exact execute_alter unnoticed calm

/-- Steps of other kinds do the same after the change as before it. It is enough to know of one of the
    two runs that all its steps are of other kinds. -/
theorem steps_alter (unnoticed : Machine.Unnoticed t kind)
    (calm : (∀ outcome ∈ (c.steps n).1, outcome.touches kind = false) ∨
      ∀ outcome ∈ ((c.alter t).steps n).1, outcome.touches kind = false) :
    (c.alter t).steps n = ((c.steps n).1, (c.steps n).2.alter t) := by
  induction n generalizing c with
  | zero => rfl
  | succ n inductionHypothesis =>
      simp only [steps, List.forall_mem_cons] at calm ⊢
      have calmFirst : c.step.1.touches kind = false := by
        rcases calm with ⟨first, -⟩ | ⟨first, -⟩
        · exact first
        · rwa [touches_step_alter unnoticed] at first
      rw [step_alter unnoticed calmFirst] at calm ⊢
      have rest := inductionHypothesis (calm.imp And.right And.right)
      rw [rest]

/-! ### Interleavings -/

/-- What became of the steps of a session. -/
def outcomes (c : Interpreter) (operations : List Operation) : List Outcome :=
  (c.turns operations).filterMap Turn.outcome?

theorem outcomes_step (c : Interpreter) (rest : List Operation) :
    c.outcomes (.step :: rest) = c.step.1 :: c.step.2.outcomes rest := rfl

theorem outcomes_append (c : Interpreter) (first second : List Operation) :
    c.outcomes (first ++ second) = c.outcomes first ++ (c.after first).outcomes second := by
  simp [outcomes]

/-- An operation that carries out no word adds no outcome. -/
theorem outcomes_of_unprimed {operation : Operation} (unprimed : c.primed? operation = none)
    (rest : List Operation) :
    c.outcomes (operation :: rest) = (c.respond operation).2.outcomes rest := by
  simp [outcomes, turns, outcome?_of_unprimed unprimed]

theorem unprimed_of_ticks {operation : Operation} (ticks : operation.ticks = true) :
    c.primed? operation = none ∧ (c.respond operation).2 = c.tick := by
  unfold Operation.ticks at ticks
  split at ticks
  · exact ⟨rfl, rfl⟩
  · exact ⟨rfl, rfl⟩
  · cases ticks

/-- A session of steps alone is a run. -/
theorem session_steps (c : Interpreter) (n : Nat) :
    c.outcomes (List.replicate n .step) = (c.steps n).1 ∧
      c.after (List.replicate n .step) = (c.steps n).2 := by
  induction n generalizing c with
  | zero => exact ⟨rfl, rfl⟩
  | succ n inductionHypothesis =>
      obtain ⟨sameOutcomes, sameAfter⟩ := inductionHypothesis c.step.2
      rw [List.replicate_succ, outcomes_step, after_cons]
      constructor
      · rw [sameOutcomes]
        rfl
      · exact sameAfter

end Interpreter

/-- The session consists of `n` steps and `k` ticks, in any order. -/
inductive Interleaves : Nat → Nat → List Operation → Prop where
  | done : Interleaves 0 0 []
  | step {n k : Nat} {rest : List Operation} (after : Interleaves n k rest) :
      Interleaves (n + 1) k (.step :: rest)
  | tick {n k : Nat} {operation : Operation} {rest : List Operation}
      (ticks : operation.ticks = true) (after : Interleaves n k rest) :
      Interleaves n (k + 1) (operation :: rest)

namespace Interpreter

variable {c : Interpreter} {n k : Nat} {operations : List Operation}

/-- If no step uses the timers, an interleaving is as good as all its steps and then all its ticks. It
    is enough to know this of the steps of either. -/
theorem normal_of_interleaves (interleaves : Interleaves n k operations)
    (calm : (∀ outcome ∈ (c.steps n).1, outcome.touches Instruction.usesTimers = false) ∨
      ∀ outcome ∈ c.outcomes operations, outcome.touches Instruction.usesTimers = false) :
    c.outcomes operations = (c.steps n).1 ∧ c.after operations = (c.steps n).2.ticks k := by
  induction interleaves generalizing c with
  | done => exact ⟨rfl, rfl⟩
  | @step n k rest _ inductionHypothesis =>
      simp only [outcomes_step, steps, List.forall_mem_cons] at calm
      obtain ⟨sameOutcomes, sameAfter⟩ := inductionHypothesis (calm.imp And.right And.right)
      constructor
      · rw [outcomes_step, sameOutcomes]
        rfl
      · exact sameAfter
  | @tick n k operation rest ticks _ inductionHypothesis =>
      obtain ⟨unprimed, ticked⟩ := unprimed_of_ticks (c := c) ticks
      rw [outcomes_of_unprimed unprimed, ticked] at calm ⊢
      rw [after_cons, ticked]
      -- The steps after the tick are calm, whichever of the two is known to be.
      have moved (calmTicked : (∀ outcome ∈ (c.steps n).1,
            outcome.touches Instruction.usesTimers = false) ∨
          ∀ outcome ∈ (c.tick.steps n).1, outcome.touches Instruction.usesTimers = false) :
          c.tick.steps n = ((c.steps n).1, (c.steps n).2.tick) :=
        steps_alter Machine.unnoticed_tick calmTicked
      rcases calm with calm | calm
      · have same := moved (.inl calm)
        have calmTicked : ∀ outcome ∈ (c.tick.steps n).1,
            outcome.touches Instruction.usesTimers = false := by
          rwa [same]
        obtain ⟨sameOutcomes, sameAfter⟩ := inductionHypothesis (.inl calmTicked)
        rw [sameOutcomes, sameAfter, same]
        exact ⟨rfl, rfl⟩
      · obtain ⟨sameOutcomes, sameAfter⟩ := inductionHypothesis (.inr calm)
        rw [sameOutcomes] at calm
        rw [sameOutcomes, sameAfter, moved (.inr calm)]
        exact ⟨rfl, rfl⟩

/-- A key write and steps that do not look at the keys can change places. -/
theorem write_steps_comm {write : Machine.Operation} (writes : write.writesKeys = true)
    (calm : (∀ outcome ∈ (c.steps n).1, outcome.touches Instruction.looksAtKeys = false) ∨
      ∀ outcome ∈ ((c.respond (.machine write)).2.steps n).1,
        outcome.touches Instruction.looksAtKeys = false) :
    (c.respond (.machine write)).2.steps n =
      ((c.steps n).1, ((c.steps n).2.respond (.machine write)).2) := by
  obtain ⟨keys, performs⟩ := Machine.perform_of_writesKeys writes
  have altered (c : Interpreter) :
      (c.respond (.machine write)).2 = c.alter (Machine.shift id keys) := by
    rw [respond, performs]
    rfl
  rw [altered] at calm
  rw [altered, altered]
  exact steps_alter (Machine.unnoticed_keys keys) calm

/-- Independent operations commute. If in one interleaving of steps and ticks no step executes an
    instruction that uses the timers, every other interleaving of as many steps and ticks has the same
    outcomes and leaves the same interpreter. And a key write can be moved across steps that neither
    execute an instruction that looks at the keys nor wait for one, in whatever session. -/
theorem independent_operations_commute (c : Interpreter) :
    (∀ (n k : Nat) (one other : List Operation), Interleaves n k one → Interleaves n k other →
      (∀ outcome ∈ c.outcomes one, outcome.touches Instruction.usesTimers = false) →
      c.outcomes other = c.outcomes one ∧ c.after other = c.after one) ∧
    ∀ (write : Machine.Operation) (before later : List Operation) (n : Nat),
      write.writesKeys = true →
      ((∀ outcome ∈ (c.after before).outcomes (List.replicate n .step),
          outcome.touches Instruction.looksAtKeys = false) ∨
        ∀ outcome ∈ (c.after (before ++ [.machine write])).outcomes (List.replicate n .step),
          outcome.touches Instruction.looksAtKeys = false) →
      c.outcomes (before ++ .machine write :: (List.replicate n .step ++ later)) =
          c.outcomes (before ++ List.replicate n .step ++ .machine write :: later) ∧
        c.after (before ++ .machine write :: (List.replicate n .step ++ later)) =
          c.after (before ++ List.replicate n .step ++ .machine write :: later) := by
  constructor
  · intro n k one other interleavesOne interleavesOther calm
    obtain ⟨outcomesOne, afterOne⟩ := normal_of_interleaves interleavesOne (.inr calm)
    rw [outcomesOne] at calm
    obtain ⟨outcomesOther, afterOther⟩ := normal_of_interleaves interleavesOther (.inl calm)
    rw [outcomesOne, outcomesOther, afterOne, afterOther]
    exact ⟨rfl, rfl⟩
  · intro write before later n writes calm
    rw [after_concat, (session_steps _ n).1, (session_steps _ n).1] at calm
    have moved := write_steps_comm writes calm
    have silent (c : Interpreter) (rest : List Operation) :
        c.outcomes (.machine write :: rest) = (c.respond (.machine write)).2.outcomes rest :=
      outcomes_of_unprimed rfl rest
    constructor
    · simp only [outcomes_append, silent, session_steps, moved, List.append_assoc]
    · simp only [after_append, after_cons, session_steps, moved]

/-- A program that puts a number into a register and adds one to it. -/
def adder : Interpreter := ofProgram [0x60, 0x05, 0x70, 0x01]

/-- Two steps and two ticks in two orders, and a key that goes down before the steps or after them,
    while the delay timer runs. -/
theorem independent_operations_commute_adder :
    (adder.after [.machine (.setDelayTimer 9), .tick, .step, .tick, .step]).machine.delayTimer = 7 ∧
    (adder.after [.machine (.setDelayTimer 9)]).outcomes [.step, .step, .machine .tick, .tick] =
      (adder.after [.machine (.setDelayTimer 9)]).outcomes [.tick, .step, .tick, .step] ∧
    (adder.after [.machine (.setDelayTimer 9)]).after [.step, .step, .machine .tick, .tick] =
      (adder.after [.machine (.setDelayTimer 9)]).after [.tick, .step, .tick, .step] ∧
    adder.after ([.tick] ++ .machine (.setKey 3 true) :: (List.replicate 2 .step ++ [.step])) =
      adder.after ([.tick] ++ List.replicate 2 .step ++ .machine (.setKey 3 true) :: [.step]) := by
  obtain ⟨seven, calmTimers, calmKeys⟩ :
      (adder.after [.machine (.setDelayTimer 9), .tick, .step, .tick, .step]).machine.delayTimer =
        7 ∧
      (∀ outcome ∈ (adder.after [.machine (.setDelayTimer 9)]).outcomes [.tick, .step, .tick, .step],
        outcome.touches Instruction.usesTimers = false) ∧
      ∀ outcome ∈ (adder.after [.tick]).outcomes (List.replicate 2 .step),
        outcome.touches Instruction.looksAtKeys = false := by
    decide +kernel
  obtain ⟨reorder, -⟩ :=
    independent_operations_commute (adder.after [.machine (.setDelayTimer 9)])
  obtain ⟨-, move⟩ := independent_operations_commute adder
  obtain ⟨sameOutcomes, sameAfter⟩ := reorder 2 2 [.tick, .step, .tick, .step]
    [.step, .step, .machine .tick, .tick]
    (.tick rfl (.step (.tick rfl (.step .done))))
    (.step (.step (.tick rfl (.tick rfl .done)))) calmTimers
  obtain ⟨-, moved⟩ := move (.setKey 3 true) [.tick] [.step] 2 rfl (.inl calmKeys)
  exact ⟨seven, sameOutcomes, sameAfter, moved⟩

end Interpreter

end ChipEight
