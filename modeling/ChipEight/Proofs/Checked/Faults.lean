/-
Module: ChipEight.Proofs.Checked.Faults
Purpose: Faults on plain arrays. An instruction refuses before it has written anything, so that after a
  fault every cell is as it was, the dead cells of the stack included. Together with the causes of
  faults and their count this says what a fault is, for the interpreter and for the array machine
  at once.
Main exports: Accepts, accepts_run, ends_execute_fault_iff, faults_exact_and_atomic
-/
import ChipEight.Proofs.Checked.Safety

namespace ChipEight.Checked

open Interpreter (Operation)

variable {α β : Type} {s s' s'' : State} {i : Instruction} {f : Fault}

/-! ### Refusals -/

/-- What two actions end in, the second one began with what the first one ended in. -/
theorem Ends.of_bind {action : Action α} {next : α → Action β} {b : β}
    (ends : Ends (action >>= next) s b s'') :
    ∃ a s', Ends action s a s' ∧ Ends (next a) s' b s'' := by
  rw [Ends] at ends
  change Action.andThen action next s = _ at ends
  rw [Action.andThen] at ends
  split at ends
  case h_1 a s' first => exact ⟨a, s', first, ends⟩
  case h_2 => cases ends

/-- The action answers with no fault, whatever it does. -/
def Accepts (action : Action (Except Fault Flow)) : Prop :=
  ∀ s f s', ¬ Ends action s (.error f) s'

theorem Accepts.pure (flow : Flow) : Accepts (pure (.ok flow)) := by
  intro s f s' refused
  cases refused

theorem Accepts.bind {action : Action α} {next : α → Action (Except Fault Flow)}
    (accepts : ∀ a, Accepts (next a)) : Accepts (action >>= next) := by
  intro s f s'' refused
  obtain ⟨a, s', -, refused⟩ := refused.of_bind
  exact accepts a s' f s'' refused

/-- Every instruction but a call and a return is accepted in every state. -/
theorem accepts_run (notCall : ∀ addr, i ≠ .call addr) (notRet : i ≠ .ret) : Accepts (run i) := by
  -- The number of actions before the answer is all that matters of an instruction.
  cases i with
  | call addr => exact absurd rfl (notCall addr)
  | ret => exact absurd rfl notRet
  | jump => exact .pure _
  | clearScreen | skipIf | loadByte | combine | loadIndex | awaitKey | storeRegisters
    | loadRegisters => exact .bind fun _ => .pure _
  | addByte | jumpOffset | loadDelay | setDelay | setSound =>
      exact .bind fun _ => .bind fun _ => .pure _
  | random | loadGlyph => exact .bind fun _ => .bind fun _ => .bind fun _ => .pure _
  | addIndex => exact .bind fun _ => .bind fun _ => .bind fun _ => .bind fun _ => .pure _
  | draw | storeDecimal =>
      exact .bind fun _ => .bind fun _ => .bind fun _ => .bind fun _ => .bind fun _ => .pure _

/-- A call is refused exactly when the pointer has left the stack, and before anything is written. -/
theorem ends_run_call_iff {addr : Address} :
    Ends (run (.call addr)) s (.error f) s' ↔
      Machine.stackDepth ≤ s.stackPointer.toNat ∧ f = .stackOverflow s.pc ∧ s' = s := by
  have looked : run (.call addr) s =
      (if Machine.stackDepth ≤ s.stackPointer.toNat then pure (.error (.stackOverflow s.pc))
        else push s.pc >>= fun _ => pure (.ok (.jump (UInt16.ofNat addr))) :
          Action (Except Fault Flow)) s := rfl
  rw [Ends, looked]
  split
  case isTrue full =>
    constructor
    · intro refused
      cases refused
      exact ⟨full, rfl, rfl⟩
    · rintro ⟨-, rfl, rfl⟩
      rfl
  case isFalse free =>
    refine iff_of_false ?_ fun refused => free refused.1
    exact Accepts.bind (fun _ => .pure _) s f s'

/-- A return is refused exactly when the pointer is at the bottom, and before anything is written. -/
theorem ends_run_ret_iff :
    Ends (run .ret) s (.error f) s' ↔
      s.stackPointer = 0 ∧ f = .stackUnderflow s.pc ∧ s' = s := by
  have looked : run .ret s =
      (if s.stackPointer = 0 then pure (.error (.stackUnderflow s.pc))
        else pop >>= fun caller => pure (.ok (.jump (caller + 2))) :
          Action (Except Fault Flow)) s := rfl
  rw [Ends, looked]
  split
  case isTrue empty =>
    constructor
    · intro refused
      cases refused
      exact ⟨empty, rfl, rfl⟩
    · rintro ⟨-, rfl, rfl⟩
      rfl
  case isFalse open_ =>
    refine iff_of_false ?_ fun refused => open_ refused.1
    exact Accepts.bind (fun _ => .pure _) s f s'

/-! ### Executions that end in a fault -/

/-- The state behind a faulty word. -/
def State.passOver (s : State) : State := { s with pc := s.pc + 2, faults := s.faults + 1 }

/-- A fault is counted as long as the count has room. -/
theorem ends_fail (few : s.faults.toNat + 1 < UInt64.size) :
    Ends (fail f) s (.fault f) s.passOver :=
  .bind .get (.bind .get (.bind (.countUp few) (.bind .update .pure)))

theorem ends_execute_of_refused (decoded : Instruction.decode s.opcode = some i)
    (refused : Ends (run i) s (.error f) s) (few : s.faults.toNat + 1 < UInt64.size) :
    Ends execute s (.fault f) s.passOver := by
  refine .bind .get (.bind .get ?_)
  rw [decoded]
  exact .bind refused (ends_fail few)

/-- A word that is faulty is not carried out. -/
theorem ends_execute_of_faulty (faulty : Faulty s.opcode s.pc s.stackPointer.toNat f)
    (few : s.faults.toNat + 1 < UInt64.size) : Ends execute s (.fault f) s.passOver := by
  cases faulty with
  | unknownOpcode undecoded =>
      refine .bind .get (.bind .get ?_)
      rw [undecoded]
      exact ends_fail few
  | stackOverflow call full =>
      obtain ⟨addr, decoded⟩ := Instruction.decode_eq_call_iff.mpr call
      exact ends_execute_of_refused decoded (ends_run_call_iff.mpr ⟨full.ge, rfl, rfl⟩) few
  | stackUnderflow ret empty =>
      have decoded := Instruction.decode_eq_ret_iff.mpr ret
      have bottom : s.stackPointer = 0 := UInt8.toNat_inj.mp empty
      exact ends_execute_of_refused decoded (ends_run_ret_iff.mpr ⟨bottom, rfl, rfl⟩) few

/-- What the instruction of a word answers before its execution ends in a fault. -/
theorem faulty_of_refused (room : s.stackPointer.toNat ≤ Machine.stackDepth)
    (decoded : Instruction.decode s.opcode = some i) (refused : Ends (run i) s (.error f) s') :
    Faulty s.opcode s.pc s.stackPointer.toNat f ∧ s' = s := by
  by_cases call : ∃ addr, i = .call addr
  · obtain ⟨addr, rfl⟩ := call
    obtain ⟨full, rfl, rfl⟩ := ends_run_call_iff.mp refused
    have word := Instruction.decode_eq_call_iff.mp ⟨addr, decoded⟩
    exact ⟨.stackOverflow word (Nat.le_antisymm room full), rfl⟩
  · by_cases ret : i = .ret
    · subst ret
      obtain ⟨bottom, rfl, rfl⟩ := ends_run_ret_iff.mp refused
      have word := Instruction.decode_eq_ret_iff.mp decoded
      exact ⟨.stackUnderflow word (by rw [bottom]; rfl), rfl⟩
    · exact absurd refused (accepts_run (not_exists.mp call) ret s f s')

/-- An execution ends in a fault exactly for a faulty word, and leaves every cell as it was. -/
theorem ends_execute_fault_iff (room : s.stackPointer.toNat ≤ Machine.stackDepth)
    (few : s.faults.toNat + 1 < UInt64.size) :
    Ends execute s (.fault f) s' ↔
      Faulty s.opcode s.pc s.stackPointer.toNat f ∧ s' = s.passOver := by
  constructor
  · intro ran
    -- It is enough to find out that the word is faulty: an execution has one end.
    suffices faulty : Faulty s.opcode s.pc s.stackPointer.toNat f by
      have ended := ran.symm.trans (ends_execute_of_faulty faulty few)
      exact ⟨faulty, (Prod.mk.inj ended).2⟩
    obtain ⟨pc, s₁, ⟨⟩, ran⟩ := ran.of_bind
    obtain ⟨opcode, s₂, ⟨⟩, ran⟩ := ran.of_bind
    cases decoded : Instruction.decode s.opcode with
    | none =>
        rw [decoded] at ran
        have ended := ran.symm.trans (ends_fail few)
        cases ended
        exact .unknownOpcode decoded
    | some i =>
        rw [decoded] at ran
        obtain ⟨result, s₃, ran, rest⟩ := ran.of_bind
        cases result with
        | error fault =>
            obtain ⟨faulty, rfl⟩ := faulty_of_refused room decoded ran
            have ended := rest.symm.trans (ends_fail few)
            cases ended
            exact faulty
        | ok flow =>
            cases flow with
            | stay => cases rest
            | next | skip | jump => cases rest
  · rintro ⟨faulty, rfl⟩
    exact ends_execute_of_faulty faulty few

/-- Faults are exact and atomic. An execution fails exactly for a faulty word, whatever else the
    interpreter holds, and then nothing has changed but that the word is passed over and the fault
    is counted. The same holds of the plain arrays, with every cell of the stack, as long as the
    count has room for one more. And over every session the count is the number of faults since the
    build or the last reset, whatever was restarted or loaded in between. -/
theorem faults_exact_and_atomic :
    (∀ (c c' : Interpreter) (f : Fault), c.machine.stack.length ≤ Machine.stackDepth →
      (c.execute = (.fault f, c') ↔
        Faulty c.machine.opcode c.machine.pc c.machine.stack.length f ∧
          c' = { c with
            machine := { c.machine with pc := c.machine.pc + 2 }
            faults := c.faults + 1 })) ∧
    (∀ (s s' : State) (f : Fault), s.stackPointer ≤ 16 → s.faults.toNat + 1 < 2 ^ 64 →
      (execute s = (.ok (.fault f), s') ↔
        Faulty s.opcode s.pc s.stackPointer.toNat f ∧
          s' = { s with pc := s.pc + 2, faults := s.faults + 1 })) ∧
    ∀ (setup : Setup) (entropy : Cipher.Key) (c : Interpreter), setup.build entropy = .ok c →
      ∃ fresh, build setup (State.blank setup entropy) = (.ok (.ok ()), fresh) ∧
        ∀ history : List Operation,
          (c.after history).faults = (sinceReset (c.turns history)).countP Turn.isFault ∧
          ((c.turns history).countP Turn.isFault < 2 ^ 64 →
            (fresh.after history).faults.toNat =
              (sinceReset (c.turns history)).countP Turn.isFault) := by
  refine ⟨?_, ?_, ?_⟩
  · intro c c' f room
    exact Interpreter.execute_eq_fault_iff room
  · intro s s' f room few
    exact ends_execute_fault_iff (UInt8.le_iff_toNat_le.mp room) few
  · intro setup entropy c built
    obtain ⟨fresh, ends, represents⟩ := ends_build built
    have isBuilt : c.Built := ⟨setup, entropy, built⟩
    refine ⟨fresh, ends, fun history => ⟨isBuilt.faults_after history, fun few => ?_⟩⟩
    rw [← isBuilt.faults_after history]
    exact (represents_after_of_built built represents few).faults

/-- An interpreter with a full stack that has fetched a call. -/
def fullStack : Interpreter :=
  { Interpreter.ofProgram [] with
    machine := { Machine.initial with opcode := 0x2200, stack := List.replicate 16 0x300 } }

/-- A call fails with a full stack, and a return with an empty one; and of three unknown words, a
    reset forgets the first, while a restart of the machine forgets none. -/
theorem faults_exact_and_atomic_fullStack :
    fullStack.execute = (.fault (.stackOverflow 0x200),
        { fullStack with machine := { fullStack.machine with pc := 0x202 }, faults := 1 }) ∧
      execute { State.blank {} (Vector.replicate 8 0) with opcode := 0x00EE } =
        (.ok (.fault (.stackUnderflow 0x200)),
          { State.blank {} (Vector.replicate 8 0) with opcode := 0x00EE, pc := 0x202, faults := 1 }) ∧
      ∃ fresh, build { program := [0xFF, 0xFF], seed? := some 0 }
          (State.blank { program := [0xFF, 0xFF], seed? := some 0 } (Vector.replicate 8 0)) =
            (.ok (.ok ()), fresh) ∧
        (fresh.after [.step, .reset, .step, .machine .restart, .step]).faults.toNat = 2 := by
  obtain ⟨exactFaults, exactOnArrays, counts⟩ := faults_exact_and_atomic
  refine ⟨?_, ?_, ?_⟩
  · refine (exactFaults _ _ _ (by decide)).mpr ⟨?_, rfl⟩
    exact .stackOverflow (by decide) rfl
  · refine (exactOnArrays _ _ _ (by decide) (by decide)).mpr ⟨?_, rfl⟩
    exact .stackUnderflow rfl rfl
  · obtain ⟨few, counted⟩ :
        ((Interpreter.ofProgram [0xFF, 0xFF]).turns
          [.step, .reset, .step, .machine .restart, .step]).countP Turn.isFault < 2 ^ 64 ∧
        (sinceReset ((Interpreter.ofProgram [0xFF, 0xFF]).turns
          [.step, .reset, .step, .machine .restart, .step])).countP Turn.isFault = 2 := by
      decide +kernel
    obtain ⟨fresh, built, follows⟩ := counts _ _ _
      (Interpreter.build_ofProgram [0xFF, 0xFF] (Vector.replicate 8 0) (by decide))
    exact ⟨fresh, built, ((follows _).2 few).trans counted⟩

end ChipEight.Checked
