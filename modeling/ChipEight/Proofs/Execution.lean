/-
Module: ChipEight.Proofs.Execution
Purpose: What one instruction and one operation can do. Carrying out a word ends in one of three
  ways, and each of them is described in full; every statement about runs takes an execution apart
  by these ways alone. Beside them stand the frame laws: the open calls and the pending key wait
  belong to a few instructions each, and a host reaches neither of them without a restart.
Main exports: Machine.Frame, Machine.frame_of_carryOut, Interpreter.Executes,
  Interpreter.executes_of_execute, Interpreter.carried_of_executed, Interpreter.primed?,
  Interpreter.eq_of_primed, Interpreter.respond_of_primed, Interpreter.SameControl,
  Interpreter.sameControl_respond
-/
import ChipEight.Proofs.Session

namespace ChipEight

/-- The open calls after an instruction at a place. -/
def Instruction.openAfter (place : UInt16) (calls : List UInt16) : Instruction → List UInt16
  | .call _ => place :: calls
  | .ret => calls.tail
  | _ => calls

def Outcome.openAfter (place : UInt16) (calls : List UInt16) : Outcome → List UInt16
  | .executed i => i.openAfter place calls
  | _ => calls

namespace Machine

variable {m m' : Machine} {d : Dialect} {noise : UInt8} {i : Instruction} {flow : Flow} {f : Fault}

/-! ### Frames of the instructions -/

/-- An operator changes registers only. -/
theorem combine_frame (m : Machine) (d : Dialect) (op : Operator) (x y : Nibble) :
    ∃ registers, m.combine d op x y = { m with registers } := by
  rw [combine]
  rcases op.apply d (m.register x) (m.register y) with ⟨value, _ | flag⟩
  · exact ⟨_, rfl⟩
  · exact ⟨_, rfl⟩

/-- A transfer from memory changes registers and I only. -/
theorem loadRegisters_frame (m : Machine) (d : Dialect) (x : Nibble) :
    ∃ registers index, m.loadRegisters d x = { m with registers, index } := ⟨_, _, rfl⟩

/-- A look at the keypad either takes a key, which ends the wait, or remembers what is held. -/
theorem awaitKey_frame (m : Machine) (x : Nibble) :
    (∃ registers, m.awaitKey x = (.next, { m with registers, keysHeld? := none })) ∨
      ∃ held, m.awaitKey x = (.stay, { m with keysHeld? := some held }) := by
  rw [awaitKey]
  cases m.keypad.fresh? (m.keypad.meet (m.keysHeld?.getD m.keypad)) with
  | some key => exact .inl ⟨_, rfl⟩
  | none => exact .inr ⟨_, rfl⟩

/-- What an instruction leaves alone, whichever it is: the place, the keys and the font; the open
    calls but for calls and returns, the pending wait but for a look at the keypad, and the screen
    but for clearing it and inverting pixels. -/
structure Frame (m : Machine) (i : Instruction) (m' : Machine) : Prop where
  pc : m'.pc = m.pc
  keypad : m'.keypad = m.keypad
  font : m'.font = m.font
  stack : m'.stack = i.openAfter m.pc m.stack
  keysHeld? : (∀ x, i ≠ .awaitKey x) → m'.keysHeld? = m.keysHeld?
  screen : m'.screen = m.screen ∨ m'.screen = Screen.dark ∨
    ∃ pixels, m'.screen = { (m.screen.toggleAll pixels).2 with pending := true }

/-- Every instruction that is carried out keeps to its frame. -/
theorem frame_of_carryOut (carried : m.carryOut d noise i = .ok (flow, m')) : m.Frame i m' := by
  cases i with
  | clearScreen =>
      cases carried
      exact ⟨rfl, rfl, rfl, rfl, fun _ => rfl, .inr (.inl rfl)⟩
  | draw x y n =>
      cases carried
      exact ⟨rfl, rfl, rfl, rfl, fun _ => rfl, .inr (.inr ⟨_, rfl⟩)⟩
  | ret =>
      cases opened : m.stack with
      | nil => simp [carryOut, opened] at carried
      | cons caller rest =>
          simp only [carryOut, opened, Except.ok.injEq, Prod.mk.injEq] at carried
          rw [← carried.2]
          exact ⟨rfl, rfl, rfl, by rw [opened]; rfl, fun _ => rfl, .inl rfl⟩
  | call addr =>
      rw [carryOut] at carried
      split at carried <;> cases carried
      exact ⟨rfl, rfl, rfl, rfl, fun _ => rfl, .inl rfl⟩
  | combine op x y =>
      -- The operators are not taken apart: for the frame it is enough that they write registers.
      obtain ⟨registers, same⟩ := m.combine_frame d op x y
      rw [carryOut, same] at carried
      cases carried
      exact ⟨rfl, rfl, rfl, rfl, fun _ => rfl, .inl rfl⟩
  | loadRegisters x =>
      obtain ⟨registers, index, same⟩ := m.loadRegisters_frame d x
      rw [carryOut, same] at carried
      cases carried
      exact ⟨rfl, rfl, rfl, rfl, fun _ => rfl, .inl rfl⟩
  | awaitKey x =>
      rcases m.awaitKey_frame x with ⟨registers, looked⟩ | ⟨held, looked⟩
      all_goals
        rw [carryOut, looked] at carried
        cases carried
        exact ⟨rfl, rfl, rfl, rfl, fun other => absurd rfl (other x), .inl rfl⟩
  | _ =>
      cases carried
      exact ⟨rfl, rfl, rfl, rfl, fun _ => rfl, .inl rfl⟩

/-- Only a wait for a key stays where it is. -/
theorem awaitKey_of_stay (carried : m.carryOut d noise i = .ok (.stay, m')) :
    ∃ x, i = .awaitKey x := by
  cases i with
  | awaitKey x => exact ⟨x, rfl⟩
  | skipIf condition =>
      rw [carryOut, Flow.skipIf] at carried
      split at carried <;> cases carried
  | ret =>
      cases stack : m.stack <;> simp [carryOut, stack] at carried
  | call addr =>
      rw [carryOut] at carried
      split at carried <;> cases carried
  | _ => cases carried

/-- A return goes on behind the innermost call, and takes it off. -/
theorem carryOut_ret (carried : m.carryOut d noise .ret = .ok (flow, m')) :
    ∃ caller rest, m.stack = caller :: rest ∧ flow = .jump (caller + 2) ∧
      m' = { m with stack := rest } := by
  cases stack : m.stack with
  | nil => simp [carryOut, stack] at carried
  | cons caller rest =>
      simp only [carryOut, stack, Except.ok.injEq, Prod.mk.injEq] at carried
      exact ⟨caller, rest, rfl, carried.1.symm, carried.2.symm⟩

end Machine

namespace Interpreter

variable {c c' e : Interpreter} {outcome : Outcome} {operation : Operation}

/-! ### The three ways of an execution -/

/-- The ways in which the word that was fetched last is dealt with. -/
inductive Executes (c : Interpreter) : Outcome → Interpreter → Prop where
  /-- The word is no instruction. -/
  | unknown (undecoded : Instruction.decode c.machine.opcode = none) :
      Executes c (.fault (.unknownOpcode c.machine.opcode c.machine.pc))
        (c.fail (.unknownOpcode c.machine.opcode c.machine.pc)).2
  /-- The instruction is a call or a return that the open calls do not allow. -/
  | refused {i : Instruction} {f : Fault}
      (decoded : Instruction.decode c.machine.opcode = some i)
      (refused : c.machine.carryOut c.dialect (c.generator.noiseFor i).1 i = .error f) :
      Executes c (.fault f) (c.fail f).2
  /-- The instruction is carried out and says where control goes. -/
  | carried {i : Instruction} {flow : Flow} {m : Machine}
      (decoded : Instruction.decode c.machine.opcode = some i)
      (carried : c.machine.carryOut c.dialect (c.generator.noiseFor i).1 i = .ok (flow, m)) :
      Executes c (flow.outcome i)
        { c with
          machine := { m with pc := flow.target c.machine.pc }
          generator := (c.generator.noiseFor i).2 }

/-- Every execution goes one of the three ways. -/
theorem executes_of_execute (ran : c.execute = (outcome, c')) : Executes c outcome c' := by
  rw [execute] at ran
  cases decoded : Instruction.decode c.machine.opcode with
  | none =>
      rw [decoded] at ran
      cases ran
      exact .unknown decoded
  | some i =>
      rw [decoded] at ran
      cases carried : c.machine.carryOut c.dialect (c.generator.noiseFor i).1 i with
      | ok result =>
          simp only [perform, carried] at ran
          cases ran
          exact .carried decoded carried
      | error f =>
          simp only [perform, carried] at ran
          cases ran
          exact .refused decoded carried

/-- An instruction that is reported as executed was carried out. -/
theorem carried_of_executed {i : Instruction} (ran : c.execute = (.executed i, c')) :
    ∃ flow m, c.machine.carryOut c.dialect (c.generator.noiseFor i).1 i = .ok (flow, m) ∧
      c' = { c with
        machine := { m with pc := flow.target c.machine.pc }
        generator := (c.generator.noiseFor i).2 } := by
  generalize reported : Outcome.executed i = outcome at ran
  cases executes_of_execute ran with
  | unknown | refused => cases reported
  | @carried j flow m decoded carried =>
      have same : j = i := by
        cases flow <;> cases reported <;> rfl
      subst same
      exact ⟨flow, m, carried, rfl⟩

/-- The instruction is executed, and leaves a machine that differs from `m` in the program counter at
    most. -/
structure CarriesOut (c : Interpreter) (i : Instruction) (m : Machine) : Prop where
  outcome : c.execute.1 = .executed i
  machine : c.execute.2.machine = { m with pc := c.execute.2.machine.pc }
  dialect : c.execute.2.dialect = c.dialect

/-- An instruction that goes on with the next one is executed. -/
theorem carriesOut_of_next {i : Instruction} {m : Machine}
    (decoded : Instruction.decode c.machine.opcode = some i)
    (carried : c.machine.carryOut c.dialect (c.generator.noiseFor i).1 i = .ok (.next, m)) :
    c.CarriesOut i m := by
  have ran : c.execute = (.executed i, { c with
      machine := { m with pc := c.machine.pc + 2 }
      generator := (c.generator.noiseFor i).2 }) := by
    rw [execute, decoded]
    simp only [perform, carried]
    rfl
  exact ⟨by rw [ran], by rw [ran], by rw [ran]⟩

namespace CarriesOut

variable {i : Instruction} {m : Machine}

theorem memory (ran : c.CarriesOut i m) : c.execute.2.machine.memory = m.memory := by
  rw [ran.machine]

theorem register (ran : c.CarriesOut i m) (r : Nibble) :
    c.execute.2.machine.register r = m.register r := by
  rw [ran.machine]
  rfl

theorem index (ran : c.CarriesOut i m) : c.execute.2.machine.index = m.index := by
  rw [ran.machine]

theorem screen (ran : c.CarriesOut i m) : c.execute.2.machine.screen = m.screen := by
  rw [ran.machine]

end CarriesOut

/-- The open calls follow the outcome. -/
theorem stack_of_execute (ran : c.execute = (outcome, c')) :
    c'.machine.stack = outcome.openAfter c.machine.pc c.machine.stack := by
  cases executes_of_execute ran with
  | unknown | refused => rfl
  | @carried i flow m decoded carried =>
      have opened := (Machine.frame_of_carryOut carried).stack
      cases flow with
      | stay =>
          obtain ⟨x, rfl⟩ := Machine.awaitKey_of_stay carried
          exact opened
      | next | skip | jump => exact opened

/-- A return goes on behind the innermost call. -/
theorem pc_of_ret (ran : c.execute = (.executed .ret, c')) :
    ∃ caller rest, c.machine.stack = caller :: rest ∧ c'.machine.stack = rest ∧
      c'.machine.pc = caller + 2 := by
  obtain ⟨flow, m, carried, rfl⟩ := carried_of_executed ran
  obtain ⟨caller, rest, stack, rfl, rfl⟩ := Machine.carryOut_ret carried
  exact ⟨caller, rest, stack, rfl, rfl⟩

/-! ### Operations -/

/-- The control of two machines agrees: where they are, what is open and what is waited for. -/
structure SameControl (m m' : Machine) : Prop where
  pc : m'.pc = m.pc
  stack : m'.stack = m.stack
  keysHeld? : m'.keysHeld? = m.keysHeld?

/-- The interpreter whose fetched word an operation carries out, if it carries one out. -/
def primed? (c : Interpreter) : Operation → Option Interpreter
  | .step => some c.fetch
  | .execute => some c
  | _ => none

theorem primed?_eq_none : c.primed? operation = none ↔ operation.runs = false := by
  cases operation <;> simp [primed?, Operation.runs]

/-- Before a word is carried out it was fetched, and nothing else has changed. -/
theorem eq_of_primed (primed : c.primed? operation = some e) :
    ∃ opcode, e = { c with machine := { c.machine with opcode } } := by
  unfold primed? at primed
  split at primed <;> cases primed
  · exact ⟨_, rfl⟩
  · exact ⟨_, rfl⟩

/-- Fetching a word leaves the control alone. -/
theorem sameControl_of_primed (primed : c.primed? operation = some e) :
    SameControl c.machine e.machine := by
  obtain ⟨opcode, rfl⟩ := eq_of_primed primed
  exact ⟨rfl, rfl, rfl⟩

theorem keypad_of_primed (primed : c.primed? operation = some e) :
    e.machine.keypad = c.machine.keypad := by
  obtain ⟨opcode, rfl⟩ := eq_of_primed primed
  rfl

/-- An operation that carries out a word answers with the outcome. -/
theorem respond_of_primed (primed : c.primed? operation = some e) :
    c.respond operation = (.outcome e.execute.1, e.execute.2) := by
  unfold primed? at primed
  split at primed <;> cases primed <;> rfl

/-- An outcome is answered by the operations that carry out a word, and by no others. -/
theorem primed_of_outcome (answered : (c.respond operation).1 = .outcome outcome) :
    ∃ e, c.primed? operation = some e ∧ e.execute = (outcome, (c.respond operation).2) := by
  cases operation with
  | step => exact ⟨_, rfl, Prod.ext (Answer.outcome.inj answered) rfl⟩
  | execute => exact ⟨_, rfl, Prod.ext (Answer.outcome.inj answered) rfl⟩
  | fetch | tick | machine => cases answered
  | reset =>
      rw [respond] at answered
      split at answered <;> cases answered

theorem outcome?_of_primed (primed : c.primed? operation = some e) :
    (c.turn operation).outcome? = some e.execute.1 := by
  rw [turn, Turn.outcome?, respond_of_primed primed]

theorem outcome?_of_unprimed (unprimed : c.primed? operation = none) :
    (c.turn operation).outcome? = none := by
  rw [turn, Turn.outcome?]
  split
  case h_1 outcome answered =>
    obtain ⟨e, primed, -⟩ := primed_of_outcome answered
    rw [unprimed] at primed
    cases primed
  case h_2 => rfl

/-! ### What a host reaches -/

/-- Loading changes memory and the font at most. -/
theorem frame_of_loads (m : Machine) {operation : Machine.Operation}
    (loads : Operation.loads (.machine operation) = true) :
    ∃ memory font, (m.perform operation).2 = { m with memory, font } := by
  cases operation with
  | loadProgram image =>
      rw [Machine.perform, Machine.loadProgram]
      split <;> exact ⟨_, _, rfl⟩
  | loadFont bytes =>
      rw [Machine.perform, Machine.loadFont]
      split <;> exact ⟨_, _, rfl⟩
  | _ => cases loads

/-- A host that does not restart a machine leaves its control alone. -/
theorem sameControl_perform (m : Machine) {operation : Machine.Operation}
    (kept : operation ≠ .restart) : SameControl m (m.perform operation).2 := by
  by_cases loads : Operation.loads (.machine operation) = true
  · obtain ⟨memory, font, loaded⟩ := frame_of_loads m loads
    rw [loaded]
    exact ⟨rfl, rfl, rfl⟩
  · cases operation with
    | restart => exact absurd rfl kept
    | loadProgram | loadFont => exact absurd rfl loads
    | _ => exact ⟨rfl, rfl, rfl⟩

/-- An operation that neither carries out a word nor restarts leaves the control alone. -/
theorem sameControl_respond (unprimed : c.primed? operation = none)
    (kept : operation.restarts = false) : SameControl c.machine (c.respond operation).2.machine := by
  cases operation with
  | machine operation =>
      apply sameControl_perform
      rintro rfl
      cases kept
  | reset => cases kept
  | fetch | tick => exact ⟨rfl, rfl, rfl⟩
  | execute | step => cases unprimed

/-- A host that neither restarts a machine nor loads anything leaves its memory alone. -/
theorem memory_perform (m : Machine) {operation : Machine.Operation} (kept : operation ≠ .restart)
    (unloaded : Operation.loads (.machine operation) = false) :
    (m.perform operation).2.memory = m.memory := by
  cases operation with
  | restart => exact absurd rfl kept
  | loadProgram | loadFont => cases unloaded
  | _ => rfl

/-- An operation that carries out no word, restarts nothing and loads nothing leaves memory alone. -/
theorem memory_respond (unprimed : c.primed? operation = none) (kept : operation.restarts = false)
    (unloaded : operation.loads = false) :
    (c.respond operation).2.machine.memory = c.machine.memory := by
  cases operation with
  | machine operation =>
      apply memory_perform _ _ unloaded
      rintro rfl
      cases kept
  | reset => cases kept
  | fetch | tick => rfl
  | execute | step => cases unprimed

/-- Idle operations leave the program at its place. -/
theorem after_idle {operations : List Operation} (idle : ∀ operation ∈ operations, operation.idle) :
    SameControl c.machine (c.after operations).machine ∧
      (c.after operations).machine.memory = c.machine.memory := by
  induction operations generalizing c with
  | nil => exact ⟨⟨rfl, rfl, rfl⟩, rfl⟩
  | cons operation rest inductionHypothesis =>
      have first := idle operation List.mem_cons_self
      simp only [Operation.idle, Bool.and_eq_true, Bool.not_eq_true'] at first
      obtain ⟨⟨unprimed, kept⟩, unloaded⟩ := first
      rw [← primed?_eq_none (c := c)] at unprimed
      have same := sameControl_respond unprimed kept
      have memory := memory_respond unprimed kept unloaded
      obtain ⟨sameRest, memoryRest⟩ := inductionHypothesis (c := (c.respond operation).2)
        fun operation member => idle operation (List.mem_cons_of_mem _ member)
      exact ⟨⟨sameRest.pc.trans same.pc, sameRest.stack.trans same.stack,
        sameRest.keysHeld?.trans same.keysHeld?⟩, memoryRest.trans memory⟩

end Interpreter

end ChipEight
