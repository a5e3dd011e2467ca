/-
Module: ChipEight.Proofs.Checked.Ownership
Purpose: The parts of an instruction, on plain arrays as well. Of the actions that an instruction is
  made of, only a call's writes a cell of the stack, and it is the cell at the pointer; with what the
  interpreter says of all other parts this is the frame of every execution, and of every run.
Main exports: leavesStack_run, stack_of_ends_execute, execution_keeps_to_its_parts
-/
import ChipEight.Proofs.Checked.Faults
import ChipEight.Proofs.Checked.Reset
import ChipEight.Proofs.Ownership

namespace ChipEight.Checked

open Interpreter (Operation)

variable {α β : Type} {s s' : State} {a : α} {outcome : Outcome} {i : Instruction}

/-! ### Actions that leave the stack alone -/

theorem LeavesStack.ends {action : Action α} (leaves : LeavesStack action)
    (ends : Ends action s a s') : s'.stack = s.stack := by
  have same := leaves s
  rw [ends] at same
  exact same

theorem leavesStack_get (part : State → α) : LeavesStack (get part) := fun _ => rfl

theorem leavesStack_lookup {n : Nat} (values : Vector α n) (i : Nat) :
    LeavesStack (lookup values i) := by
  rw [lookup]
  split <;> exact fun _ => rfl

theorem leavesStack_replace {n : Nat} (values : Vector α n) (i : Nat) (value : α) :
    LeavesStack (replace values i value) := by
  rw [replace]
  split <;> exact fun _ => rfl

theorem leavesStack_addByte (a b : UInt8) : LeavesStack (addByte a b) := by
  rw [addByte]
  split <;> exact fun _ => rfl

theorem leavesStack_subByte (a b : UInt8) : LeavesStack (subByte a b) := by
  rw [subByte]
  split <;> exact fun _ => rfl

theorem leavesStack_addWord (a b : UInt16) : LeavesStack (addWord a b) := by
  rw [addWord]
  split <;> exact fun _ => rfl

theorem leavesStack_mulWord (a b : UInt16) : LeavesStack (mulWord a b) := by
  rw [mulWord]
  split <;> exact fun _ => rfl

theorem leavesStack_countUp (n : UInt64) : LeavesStack (countUp n) := by
  rw [countUp]
  split <;> exact fun _ => rfl

theorem leavesStack_register (x : Nat) : LeavesStack (register x) :=
  .bind (leavesStack_get _) fun _ => leavesStack_lookup _ _

theorem leavesStack_setRegister (x : Nat) (value : UInt8) : LeavesStack (setRegister x value) :=
  .bind (leavesStack_get _) fun _ => .bind (leavesStack_replace _ _ _) fun _ _ => rfl

theorem leavesStack_readByte (address : UInt16) : LeavesStack (readByte address) :=
  .bind (leavesStack_get _) fun _ => leavesStack_lookup _ _

theorem leavesStack_writeByte (address : UInt16) (byte : UInt8) :
    LeavesStack (writeByte address byte) :=
  .bind (leavesStack_get _) fun _ => .bind (leavesStack_replace _ _ _) fun _ _ => rfl

theorem leavesStack_key (k : Nat) : LeavesStack (key k) :=
  .bind (leavesStack_get _) fun _ => leavesStack_lookup _ _

/-- A return moves the pointer and leaves the place that it reads where it is. -/
theorem leavesStack_pop : LeavesStack pop :=
  .bind (leavesStack_get _) fun _ => .bind (leavesStack_subByte _ _) fun _ =>
    .bind (fun _ => rfl) fun _ => .bind (leavesStack_get _) fun _ => leavesStack_lookup _ _

/-! ### The loops -/

theorem leavesStack_toggle (x y : Nat) : LeavesStack (toggle x y) := by
  refine .bind ?_ fun place => .bind (leavesStack_get _) fun cells => ?_
  · rw [offset]
    split <;> exact fun _ => rfl
  · split
    · exact .bind (fun _ => rfl) fun _ => .pure _
    · exact fun _ => rfl

theorem leavesStack_drawRow (wraps : Bool) (left y : Nat) (row : UInt8) (hit : Bool)
    (columns : List (Fin 8)) : LeavesStack (drawRow wraps left y row hit columns) := by
  induction columns generalizing hit with
  | nil => exact .pure hit
  | cons column rest inductionHypothesis =>
      rw [drawRow]
      split
      · exact inductionHypothesis hit
      · split
        · exact .bind (leavesStack_toggle _ _) fun lit => inductionHypothesis (hit || lit)
        · split
          · exact .bind (leavesStack_toggle _ _) fun lit => inductionHypothesis (hit || lit)
          · exact .pure hit

theorem leavesStack_drawRowAt (wraps : Bool) (left y r : Nat) (hit : Bool) :
    LeavesStack (drawRowAt wraps left y r hit) :=
  .bind (leavesStack_get _) fun _ => .bind (leavesStack_readByte _) fun _ =>
    leavesStack_drawRow _ _ _ _ _ _

theorem leavesStack_drawRows (wraps : Bool) (left top : Nat) (hit : Bool) (rows : List Nat) :
    LeavesStack (drawRows wraps left top hit rows) := by
  induction rows generalizing hit with
  | nil => exact .pure hit
  | cons r rest inductionHypothesis =>
      rw [drawRows]
      split
      · exact .bind (leavesStack_drawRowAt _ _ _ _ _) inductionHypothesis
      · split
        · exact .bind (leavesStack_drawRowAt _ _ _ _ _) inductionHypothesis
        · exact .pure hit

theorem leavesStack_drawSprite (x y : UInt8) (n : Nat) (wraps : Bool) :
    LeavesStack (drawSprite x y n wraps) :=
  .bind (leavesStack_drawRows _ _ _ _ _) fun _ => .bind (fun _ => rfl) fun _ => .pure _

theorem leavesStack_findKey (keys held : Vector Bool 16) (order : List Nat) :
    LeavesStack (findKey keys held order) := by
  induction order with
  | nil => exact .pure none
  | cons k rest inductionHypothesis =>
      refine .bind (leavesStack_lookup _ _) fun down => ?_
      split
      · refine .bind (leavesStack_lookup _ _) fun before => ?_
        split
        · exact inductionHypothesis
        · exact .pure _
      · exact inductionHypothesis

theorem leavesStack_awaitKey (x : Nat) : LeavesStack (awaitKey x) := by
  refine .bind (leavesStack_get _) fun _ => .bind (leavesStack_get _) fun _ =>
    .bind (fun _ => rfl) fun _ => .bind (leavesStack_findKey _ _ _) fun found => ?_
  cases found with
  | some k => exact .bind (leavesStack_setRegister _ _) fun _ => .bind (fun _ => rfl) fun _ => .pure _
  | none => exact .pure _

theorem leavesStack_storeEach (registers : List Nat) : LeavesStack (storeEach registers) := by
  induction registers with
  | nil => exact .pure ()
  | cons r rest inductionHypothesis =>
      exact .bind (leavesStack_get _) fun _ => .bind (leavesStack_register _) fun _ =>
        .bind (leavesStack_writeByte _ _) fun _ => inductionHypothesis

theorem leavesStack_loadEach (registers : List Nat) : LeavesStack (loadEach registers) := by
  induction registers with
  | nil => exact .pure ()
  | cons r rest inductionHypothesis =>
      exact .bind (leavesStack_get _) fun _ => .bind (leavesStack_readByte _) fun _ =>
        .bind (leavesStack_setRegister _ _) fun _ => inductionHypothesis

theorem leavesStack_moveIndex (x : Nat) : LeavesStack (moveIndex x) := by
  refine .bind (leavesStack_get _) fun dialect => ?_
  split
  · exact .bind (leavesStack_addWord _ _) fun _ _ => rfl
  · exact .pure ()

/-! ### Instructions -/

theorem leavesStack_holds (condition : Condition) : LeavesStack (holds condition) := by
  cases condition with
  | equalsByte | differsFromByte => exact .bind (leavesStack_register _) fun _ => .pure _
  | equals | differs =>
      exact .bind (leavesStack_register _) fun _ => .bind (leavesStack_register _) fun _ => .pure _
  | keyDown => exact .bind (leavesStack_register _) fun _ => leavesStack_key _
  | keyUp =>
      exact .bind (leavesStack_register _) fun _ => .bind (leavesStack_key _) fun _ => .pure _

theorem leavesStack_combine (op : Operator) (x y : Nat) : LeavesStack (combine op x y) := by
  refine .bind (leavesStack_get _) fun dialect => .bind (leavesStack_register _) fun a =>
    .bind (leavesStack_register _) fun b => ?_
  rcases op.apply dialect a b with ⟨value, _ | flag⟩
  · exact leavesStack_setRegister _ _
  · exact .bind (leavesStack_setRegister _ _) fun _ => leavesStack_setRegister _ _

/-- No instruction but a call writes a cell of the stack. -/
theorem leavesStack_run (notCall : ∀ addr, i ≠ .call addr) : LeavesStack (run i) := by
  cases i with
  | call addr => exact absurd rfl (notCall addr)
  | ret =>
      refine .bind (leavesStack_get _) fun pointer => .bind (leavesStack_get _) fun pc => ?_
      split
      · exact .pure _
      · exact .bind leavesStack_pop fun _ => .pure _
  | jump => exact .pure _
  | clearScreen | loadIndex => exact .bind (fun _ => rfl) fun _ => .pure _
  | skipIf => exact .bind (leavesStack_holds _) fun _ => .pure _
  | loadByte => exact .bind (leavesStack_setRegister _ _) fun _ => .pure _
  | addByte =>
      exact .bind (leavesStack_register _) fun _ => .bind (leavesStack_setRegister _ _) fun _ =>
        .pure _
  | loadDelay =>
      exact .bind (leavesStack_get _) fun _ => .bind (leavesStack_setRegister _ _) fun _ => .pure _
  | combine => exact .bind (leavesStack_combine _ _ _) fun _ => .pure _
  | jumpOffset =>
      exact .bind (leavesStack_get _) fun _ => .bind (leavesStack_register _) fun _ => .pure _
  | random =>
      exact .bind (leavesStack_get _) fun _ => .bind (fun _ => rfl) fun _ =>
        .bind (leavesStack_setRegister _ _) fun _ => .pure _
  | draw =>
      exact .bind (leavesStack_get _) fun _ => .bind (leavesStack_register _) fun _ =>
        .bind (leavesStack_register _) fun _ => .bind (leavesStack_drawSprite _ _ _ _) fun _ =>
          .bind (leavesStack_setRegister _ _) fun _ => .pure _
  | awaitKey => exact .bind (leavesStack_awaitKey _) fun _ => .pure _
  | setDelay | setSound =>
      exact .bind (leavesStack_register _) fun _ => .bind (fun _ => rfl) fun _ => .pure _
  | addIndex =>
      exact .bind (leavesStack_get _) fun _ => .bind (leavesStack_register _) fun _ =>
        .bind (fun _ => rfl) fun _ => .bind (leavesStack_setRegister _ _) fun _ => .pure _
  | loadGlyph =>
      exact .bind (leavesStack_register _) fun _ =>
        .bind (.bind (leavesStack_mulWord _ _) fun _ => leavesStack_addWord _ _) fun _ =>
          .bind (fun _ => rfl) fun _ => .pure _
  | storeDecimal =>
      exact .bind (leavesStack_register _) fun _ => .bind (leavesStack_get _) fun _ =>
        .bind (leavesStack_writeByte _ _) fun _ => .bind (leavesStack_writeByte _ _) fun _ =>
          .bind (leavesStack_writeByte _ _) fun _ => .pure _
  | storeRegisters =>
      exact .bind (.bind (leavesStack_storeEach _) fun _ => leavesStack_moveIndex _) fun _ => .pure _
  | loadRegisters =>
      exact .bind (.bind (leavesStack_loadEach _) fun _ => leavesStack_moveIndex _) fun _ => .pure _

/-- A call writes its place to the cell at the pointer. -/
theorem stack_of_ends_push {place : UInt16} (ends : Ends (push place) s () s') :
    ∃ inside : s.stackPointer.toNat < 16,
      s'.stack = s.stack.set s.stackPointer.toNat place inside := by
  obtain ⟨pointer, s₁, ⟨⟩, ends⟩ := ends.of_bind
  obtain ⟨stack, s₂, ⟨⟩, ends⟩ := ends.of_bind
  obtain ⟨written, s₃, replaced, ends⟩ := ends.of_bind
  rw [Ends, replace] at replaced
  split at replaced
  case isTrue inside =>
    cases replaced
    obtain ⟨_, s₄, ⟨⟩, ends⟩ := ends.of_bind
    have moves (pointer : UInt8) : LeavesStack (addByte pointer 1 >>= fun pointer =>
        update fun s => { s with stackPointer := pointer }) :=
      .bind (leavesStack_addByte _ _) fun _ _ => rfl
    exact ⟨inside, (moves _).ends ends⟩
  case isFalse => cases replaced

theorem stack_of_ends_run_call {addr : Address} {flow : Flow}
    (ends : Ends (run (.call addr)) s (.ok flow) s') :
    flow = .jump (UInt16.ofNat addr) ∧
      ∃ inside : s.stackPointer.toNat < 16,
        s'.stack = s.stack.set s.stackPointer.toNat s.pc inside := by
  obtain ⟨pointer, s₁, ⟨⟩, ends⟩ := ends.of_bind
  obtain ⟨pc, s₂, ⟨⟩, ends⟩ := ends.of_bind
  split at ends
  · cases ends
  · obtain ⟨_, s₃, pushed, ends⟩ := ends.of_bind
    cases ends
    exact ⟨rfl, stack_of_ends_push pushed⟩

theorem leavesStack_fail (f : Fault) : LeavesStack (fail f) :=
  .bind (leavesStack_get _) fun _ => .bind (leavesStack_get _) fun _ =>
    .bind (leavesStack_countUp _) fun _ => .bind (fun _ => rfl) fun _ => .pure _

/-- What becomes of the stack: a call that is executed writes its place to the cell at the pointer,
    and nothing else writes to any cell. -/
theorem stack_of_ends_execute (ends : Ends execute s outcome s') :
    s'.stack = s.stack ∨
      (∃ addr, outcome = .executed (.call addr)) ∧
        ∃ inside : s.stackPointer.toNat < 16,
          s'.stack = s.stack.set s.stackPointer.toNat s.pc inside := by
  obtain ⟨pc, s₁, ⟨⟩, ends⟩ := ends.of_bind
  obtain ⟨opcode, s₂, ⟨⟩, ends⟩ := ends.of_bind
  split at ends
  case h_2 => exact .inl ((leavesStack_fail _).ends ends)
  case h_1 i decoded =>
    obtain ⟨result, s₃, ran, rest⟩ := ends.of_bind
    by_cases call : ∃ addr, i = .call addr
    · obtain ⟨addr, rfl⟩ := call
      cases result with
      | error f =>
          -- A call that is refused has not written anything.
          obtain ⟨-, -, rfl⟩ := ends_run_call_iff.mp ran
          exact .inl ((leavesStack_fail _).ends rest)
      | ok flow =>
          obtain ⟨rfl, pushed⟩ := stack_of_ends_run_call ran
          cases rest
          exact .inr ⟨⟨addr, rfl⟩, pushed⟩
    · have same := (leavesStack_run (not_exists.mp call)).ends ran
      refine .inl (Eq.trans ?_ same)
      cases result with
      | error f => exact (leavesStack_fail _).ends rest
      | ok flow => cases flow <;> cases rest <;> rfl

/-- The cells of the stack and the pointer: only an executed call writes a cell, the one at the
    pointer, and only calls and returns move the pointer. -/
theorem ends_execute_stack {c : Interpreter} (represents : Represents s c)
    (few : c.execute.2.faults < UInt64.size) :
    ∃ s', Ends execute s c.execute.1 s' ∧ Represents s' c.execute.2 ∧
      (∀ (k : Nat) (inside : k < 16), s'.stack[k] ≠ s.stack[k] →
        k = s.stackPointer.toNat ∧ ∃ addr, c.execute.1 = .executed (.call addr)) ∧
      (c.execute.1.owns c.machine c.dialect .calls = false → s'.stackPointer = s.stackPointer) := by
  obtain ⟨s', ends, after⟩ := performs_execute few s represents
  refine ⟨s', ends, after, fun k inside changed => ?_, fun unowned => ?_⟩
  · rcases stack_of_ends_execute ends with same | ⟨called, bound, pushed⟩
    · exact absurd (congrArg (fun stack : Vector UInt16 16 => stack[k]) same) changed
    · refine ⟨?_, called⟩
      by_contra other
      rw [pushed, Vector.getElem_set_ne _ _ (Ne.symm other)] at changed
      exact changed rfl
  · have same : c.execute.2.machine.stack = c.machine.stack :=
      Interpreter.same_of_execute rfl unowned
    apply UInt8.toNat.inj
    rw [after.stackPointer, represents.stackPointer, same]

/-! ### The frame of every execution -/

/-- An interpreter is the sum of its parts, and an execution changes only those that its outcome owns:
    the parts of the instruction; while the program waits for a key, the wait; after a fault, the
    place and the count of faults, which grows by one. What draws leaves a frame waiting, and nothing
    takes one away. The three decimal digits of VX, or the registers V0 to VX, stand from I on, around
    the end of memory. On plain arrays only an executed call writes a cell of the stack, and only calls
    and returns move its pointer. So through a session that neither restarts nor loads, every cell
    keeps its byte that no instruction stored to. -/
theorem execution_keeps_to_its_parts :
    (∀ c c' : Interpreter, (∀ part : Part, part.Same c c') → c' = c) ∧
    (∀ c : Interpreter,
      (∀ part : Part,
        c.execute.1.owns c.machine c.dialect part = false → part.Same c c.execute.2) ∧
      c.execute.2.faults = c.faults + (if c.execute.1.isFault then 1 else 0) ∧
      (c.execute.1.draws = true → c.execute.2.machine.screen.pending = true) ∧
      (c.machine.screen.pending = true → c.execute.2.machine.screen.pending = true) ∧
      (∀ x, c.execute.1 = .executed (.storeDecimal x) →
        let digit (k : Nat) :=
          (c.execute.2.machine.memory.cells.get (lowAddress (c.machine.index.toNat + k))).toNat
        digit 0 < 10 ∧ digit 1 < 10 ∧ digit 2 < 10 ∧
          100 * digit 0 + 10 * digit 1 + digit 2 = (c.machine.register x).toNat) ∧
      ∀ x r, c.execute.1 = .executed (.storeRegisters x) → r ≤ x →
        c.execute.2.machine.memory.cells.get (lowAddress (c.machine.index.toNat + r)) =
          c.machine.register r) ∧
    (∀ (c : Interpreter) (s : State), Represents s c → c.execute.2.faults < 2 ^ 64 →
      ∃ s', execute s = (.ok c.execute.1, s') ∧ Represents s' c.execute.2 ∧
        (∀ (k : Nat) (inside : k < 16), s'.stack[k] ≠ s.stack[k] →
          k = s.stackPointer.toNat ∧ ∃ addr, c.execute.1 = .executed (.call addr)) ∧
        (c.execute.1.owns c.machine c.dialect .calls = false →
          s'.stackPointer = s.stackPointer)) ∧
    ∀ (c : Interpreter) (operations : List Operation),
      (∀ operation ∈ operations, operation.restarts = false ∧ operation.loads = false) →
      ∀ a : Address, a ∉ c.footprint operations →
        (c.after operations).machine.memory.cells.get a = c.machine.memory.cells.get a := by
  refine ⟨fun c c' => Part.eq_of_same, fun c => ⟨?_, ?_, ?_, ?_, ?_, ?_⟩,
    fun c s represents few => ?_, ?_⟩
  · exact fun part unowned => Interpreter.same_of_execute rfl unowned
  · exact Interpreter.faults_of_execute rfl
  · exact (Interpreter.deviceFrame_of_execute rfl).pending
  · exact Interpreter.pending_of_execute rfl
  · intro x ran digit
    have stands := fun r : Fin 3 =>
      congrArg UInt8.toNat (Interpreter.digits_of_execute (Prod.ext ran rfl) r)
    obtain ⟨decimal, value⟩ := Machine.decimalDigit_spec (c.machine.register x)
    simp only [← stands] at decimal value
    exact ⟨decimal 0, decimal 1, decimal 2, value⟩
  · exact fun x r ran upTo => Interpreter.registers_of_execute (Prod.ext ran rfl) upTo
  · exact ends_execute_stack represents few
  · exact fun c operations quiet a outside => Interpreter.cell_after quiet outside

/-- A program that stores the digits of 254 to the last cell and the two first ones, and then calls. -/
def digitsAroundEnd : List UInt8 := [0xAF, 0xFF, 0x60, 0xFE, 0xF0, 0x33, 0x22, 0x00]

/-- The register keeps the value whose digits are stored; a cell of the program keeps its byte while
    all of it runs; and the call writes one cell of the stack at most. -/
theorem execution_keeps_to_its_parts_digitsAroundEnd :
    (Part.Same ((Interpreter.ofProgram digitsAroundEnd).after [.step, .step, .fetch])
        ((Interpreter.ofProgram digitsAroundEnd).after [.step, .step, .fetch]).execute.2
        (.register (lowNibble 0)) ∧
      let digit (k : Nat) := (((Interpreter.ofProgram digitsAroundEnd).after
        [.step, .step, .fetch]).execute.2.machine.memory.cells.get (lowAddress (0xFFF + k))).toNat
      100 * digit 0 + 10 * digit 1 + digit 2 = 254) ∧
    (∃ s s', Represents s
        ((Interpreter.ofProgram digitsAroundEnd).after [.step, .step, .step, .fetch]) ∧
      execute s = (.ok (.executed (.call (lowAddress 0x200))), s') ∧
      ∀ (k : Nat) (inside : k < 16), k ≠ s.stackPointer.toNat → s'.stack[k] = s.stack[k]) ∧
    ((Interpreter.ofProgram digitsAroundEnd).after [.step, .step, .step, .step]
      ).machine.memory.cells.get (lowAddress 0x207) =
        (Interpreter.ofProgram digitsAroundEnd).machine.memory.cells.get (lowAddress 0x207) := by
  obtain ⟨-, interpreter, arrays, runs⟩ := execution_keeps_to_its_parts
  refine ⟨⟨?_, ?_⟩, ?_, ?_⟩
  · exact (interpreter _).1 (.register (lowNibble 0)) (by decide +kernel)
  · obtain ⟨stores, index, value⟩ :
        ((Interpreter.ofProgram digitsAroundEnd).after [.step, .step, .fetch]).execute.1 =
          .executed (.storeDecimal (lowNibble 0)) ∧
        ((Interpreter.ofProgram digitsAroundEnd).after [.step, .step, .fetch]).machine.index.toNat =
          0xFFF ∧
        (((Interpreter.ofProgram digitsAroundEnd).after [.step, .step, .fetch]).machine.register
          (lowNibble 0)).toNat = 254 := by
      decide +kernel
    obtain ⟨-, -, -, -, digits, -⟩ :=
      interpreter ((Interpreter.ofProgram digitsAroundEnd).after [.step, .step, .fetch])
    obtain ⟨-, -, -, whole⟩ := digits _ stores
    rw [index, value] at whole
    exact whole
  · obtain ⟨few, call, calm⟩ :
        ((Interpreter.ofProgram digitsAroundEnd).turns
          [.step, .step, .step, .fetch]).countP Turn.isFault < 2 ^ 64 ∧
        ((Interpreter.ofProgram digitsAroundEnd).after
          [.step, .step, .step, .fetch]).execute.1 = .executed (.call (lowAddress 0x200)) ∧
        ((Interpreter.ofProgram digitsAroundEnd).after
          [.step, .step, .step, .fetch]).execute.2.faults < 2 ^ 64 := by
      decide +kernel
    have built := Interpreter.build_ofProgram digitsAroundEnd (Vector.replicate 8 0) (by decide)
    obtain ⟨fresh, -, represents⟩ := ends_build built
    have reached := represents_after_of_built built represents few
    obtain ⟨s', ends, -, stack, -⟩ := arrays _ _ reached calm
    rw [call] at ends
    refine ⟨_, s', reached, ends, fun k inside other => ?_⟩
    by_contra changed
    exact other (stack k inside changed).1
  · exact runs _ _ (by decide) _ (by decide +kernel)

/-- What belongs to the instruction is not all: where the word is no instruction, not the place
    alone is different after it, but the count of faults as well. -/
theorem fault_changes_count :
    ¬ ∀ part : Part, part ≠ .place →
      (∀ i, Instruction.decode
          ((Interpreter.ofProgram [0x00, 0x00]).after [.fetch]).machine.opcode = some i →
        i.owns ((Interpreter.ofProgram [0x00, 0x00]).after [.fetch]).machine
          ((Interpreter.ofProgram [0x00, 0x00]).after [.fetch]).dialect part = false) →
      part.Same ((Interpreter.ofProgram [0x00, 0x00]).after [.fetch])
        ((Interpreter.ofProgram [0x00, 0x00]).after [.fetch]).execute.2 := by
  intro same
  obtain ⟨undecoded, counted⟩ :
      Instruction.decode ((Interpreter.ofProgram [0x00, 0x00]).after [.fetch]).machine.opcode =
        none ∧
      ((Interpreter.ofProgram [0x00, 0x00]).after [.fetch]).execute.2.faults ≠
        ((Interpreter.ofProgram [0x00, 0x00]).after [.fetch]).faults := by
    decide +kernel
  refine counted (same .faults (by decide) fun i decoded => ?_)
  rw [undecoded] at decoded
  cases decoded

end ChipEight.Checked
