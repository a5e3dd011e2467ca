/-
Module: ChipEight.Proofs.Faults
Purpose: What makes an execution fail, and what a failure leaves behind. A word that is no instruction,
  a call with a full stack and a return with an empty one are the only causes, and each of them
  fails whatever else the machine holds. A failure passes over the word and is counted; the count
  is the number of failures since the last reset, and a restart of the machine does not touch it.
Main exports: Faulty, Interpreter.execute_eq_fault_iff, sinceReset, Interpreter.faults_respond,
  Interpreter.faults_after, Interpreter.Built.faults_after
-/
import ChipEight.Instruction.RoundTrip
import ChipEight.Proofs.Invariant

namespace ChipEight

open Interpreter (Operation)

/-- The word `opcode` at `pc` cannot be carried out while `depth` calls are open, for this reason. -/
inductive Faulty (opcode pc : UInt16) (depth : Nat) : Fault → Prop where
  | unknownOpcode (undecoded : Instruction.decode opcode = none) :
      Faulty opcode pc depth (.unknownOpcode opcode pc)
  /-- `2NNN` while as many calls are open as there may be. -/
  | stackOverflow (call : opcode.toNat / 0x1000 = 0x2) (full : depth = Machine.stackDepth) :
      Faulty opcode pc depth (.stackOverflow pc)
  /-- `00EE` while no call is open. -/
  | stackUnderflow (ret : opcode = 0x00EE) (empty : depth = 0) :
      Faulty opcode pc depth (.stackUnderflow pc)

namespace Instruction

/-- The calls are the words of the family `2___`. -/
theorem decode_eq_call_iff {w : UInt16} :
    (∃ addr, decode w = some (.call addr)) ↔ w.toNat / 0x1000 = 0x2 := by
  constructor
  · rintro ⟨addr, decoded⟩
    rw [← encode_of_decode decoded, encode, toNat_word (by decide) addr.isLt]
    omega
  · intro family
    rw [decode, family]
    exact ⟨_, rfl⟩

/-- The word `00EE` is the only return. -/
theorem decode_eq_ret_iff {w : UInt16} : decode w = some .ret ↔ w = 0x00EE :=
  decode_eq_some_iff

end Instruction

namespace Machine

variable {m : Machine} {d : Dialect} {noise : UInt8} {i : Instruction} {f : Fault}

/-- Nothing but a call with a full stack and a return with an empty one is refused. -/
theorem carryOut_eq_error_iff :
    m.carryOut d noise i = .error f ↔
      (∃ addr, i = .call addr) ∧ stackDepth ≤ m.stack.length ∧ f = .stackOverflow m.pc ∨
        i = .ret ∧ m.stack.length = 0 ∧ f = .stackUnderflow m.pc := by
  cases i with
  | call addr =>
      rw [carryOut]
      by_cases free : m.stack.length < stackDepth
      · simp [free, Nat.not_le.mpr free]
      · simp [free, Nat.not_lt.mp free, eq_comm]
  | ret =>
      rw [carryOut]
      cases m.stack <;> simp [eq_comm]
  | _ => simp [carryOut]

end Machine

namespace Interpreter

variable {c c' e : Interpreter} {outcome : Outcome} {operation : Operation} {f : Fault}

/-! ### Causes and effects -/

/-- A word that is faulty is not carried out. -/
theorem execute_of_faulty
    (faulty : Faulty c.machine.opcode c.machine.pc c.machine.stack.length f) :
    c.execute = c.fail f := by
  have refused {i : Instruction} (decoded : Instruction.decode c.machine.opcode = some i)
      (error : c.machine.carryOut c.dialect (c.generator.noiseFor i).1 i = .error f) :
      c.execute = c.fail f := by
    simp only [execute, decoded, perform, error]
  cases faulty with
  | unknownOpcode undecoded => rw [execute, undecoded]
  | stackOverflow call full =>
      obtain ⟨addr, decoded⟩ := Instruction.decode_eq_call_iff.mpr call
      exact refused decoded (Machine.carryOut_eq_error_iff.mpr (.inl ⟨⟨addr, rfl⟩, full.ge, rfl⟩))
  | stackUnderflow ret empty =>
      have decoded := Instruction.decode_eq_ret_iff.mpr ret
      exact refused decoded (Machine.carryOut_eq_error_iff.mpr (.inr ⟨rfl, empty, rfl⟩))

/-- An execution fails exactly for a faulty word, and then the word is passed over, the fault is
    counted, and nothing else has changed. -/
theorem execute_eq_fault_iff (room : c.machine.stack.length ≤ Machine.stackDepth) :
    c.execute = (.fault f, c') ↔
      Faulty c.machine.opcode c.machine.pc c.machine.stack.length f ∧ c' = (c.fail f).2 := by
  constructor
  · intro ran
    generalize failed : Outcome.fault f = outcome at ran
    cases executes_of_execute ran with
    | unknown undecoded =>
        cases failed
        exact ⟨.unknownOpcode undecoded, rfl⟩
    | refused decoded error =>
        cases failed
        rcases Machine.carryOut_eq_error_iff.mp error with
          ⟨⟨addr, rfl⟩, full, rfl⟩ | ⟨rfl, empty, rfl⟩
        · have call := Instruction.decode_eq_call_iff.mp ⟨addr, decoded⟩
          exact ⟨.stackOverflow call (Nat.le_antisymm room full), rfl⟩
        · exact ⟨.stackUnderflow (Instruction.decode_eq_ret_iff.mp decoded) empty, rfl⟩
    | @carried i flow m decoded carried => cases flow <;> cases failed
  · rintro ⟨faulty, rfl⟩
    exact execute_of_faulty faulty

/-! ### The count of faults -/

/-- An execution counts a fault if it ends in one. -/
theorem faults_of_execute (ran : c.execute = (outcome, c')) :
    c'.faults = c.faults + if outcome.isFault then 1 else 0 := by
  cases executes_of_execute ran with
  | unknown | refused => rfl
  | @carried i flow m decoded carried => cases flow <;> rfl

theorem isFault_of_primed (primed : c.primed? operation = some e) :
    (c.turn operation).isFault = e.execute.1.isFault := by
  rw [Turn.isFault, outcome?_of_primed primed, Option.any_some]

/-- The count grows with the turns that end in a fault, and with no others. -/
theorem faults_respond (c : Interpreter) (kept : operation ≠ .reset) :
    (c.respond operation).2.faults = c.faults + [c.turn operation].countP Turn.isFault := by
  cases primed : c.primed? operation with
  | some e =>
      have same : e.faults = c.faults := by
        obtain ⟨opcode, rfl⟩ := eq_of_primed primed
        rfl
      rw [List.countP_singleton, isFault_of_primed primed, respond_of_primed primed, ← same]
      exact faults_of_execute rfl
  | none =>
      cases operation with
      | machine | fetch | tick => rfl
      | execute | step => cases primed
      | reset => exact absurd rfl kept

/-- A reset forgets the faults, or fails and changes nothing. -/
theorem faults_respond_le (c : Interpreter) (operation : Operation) :
    (c.respond operation).2.faults ≤ c.faults + [c.turn operation].countP Turn.isFault := by
  by_cases reset : operation = .reset
  · rw [reset, respond]
    split
    case h_1 c' restored =>
      obtain ⟨machine, -, restored⟩ := Except.bind_eq_ok.mp restored
      cases restored
      exact Nat.zero_le _
    case h_2 => exact Nat.le_add_right _ _
  · exact (c.faults_respond reset).le

/-- The count is at most the number of turns that ended in a fault. -/
theorem faults_after (c : Interpreter) (operations : List Operation) :
    (c.after operations).faults ≤ c.faults + (c.turns operations).countP Turn.isFault := by
  induction operations generalizing c with
  | nil => exact Nat.le_refl _
  | cons operation rest inductionHypothesis =>
      calc (c.after (operation :: rest)).faults
        _ ≤ (c.respond operation).2.faults +
              ((c.respond operation).2.turns rest).countP Turn.isFault := inductionHypothesis _
        _ ≤ c.faults + [c.turn operation].countP Turn.isFault +
              ((c.respond operation).2.turns rest).countP Turn.isFault :=
            Nat.add_le_add_right (c.faults_respond_le operation) _
        _ = c.faults + (c.turns (operation :: rest)).countP Turn.isFault := by
            rw [Nat.add_assoc, ← List.countP_append]
            rfl

end Interpreter

/-- The turns after the last reset. -/
def sinceReset (turns : List Turn) : List Turn :=
  turns.rtakeWhile fun t => t.operation != .reset

theorem sinceReset_concat (turns : List Turn) (t : Turn) :
    sinceReset (turns ++ [t]) =
      if t.operation = .reset then [] else sinceReset turns ++ [t] := by
  rw [sinceReset, List.rtakeWhile_concat]
  by_cases reset : t.operation = .reset <;> simp [reset, sinceReset]

namespace Interpreter

variable {c : Interpreter}

/-- From a build on, the count is the number of faults since the last reset. -/
theorem Built.faults_after (built : c.Built) (history : List Operation) :
    (c.after history).faults = (sinceReset (c.turns history)).countP Turn.isFault := by
  induction history using List.reverseRecOn with
  | nil =>
      obtain ⟨setup, entropy, built⟩ := built
      exact (Setup.build_eq_ok built).2.2.2
  | append_singleton history operation inductionHypothesis =>
      rw [after_concat, turns_concat, sinceReset_concat, turn_operation]
      by_cases reset : operation = .reset
      · rw [if_pos reset, reset, respond, (built.wellFormed_after history).reset]
        rfl
      · rw [if_neg reset, faults_respond _ reset, inductionHypothesis, List.countP_append]

end Interpreter

end ChipEight
