/-
Module: ChipEight.Proofs.Checked.Safety
Purpose: The array machine runs through every session. From a build on, and as long as the count of
  faults has room, no operation names a cell that is not there and no sum leaves its range, with the
  one exception of a host who names a place off the screen; and between operations the stack pointer
  stays inside the stack and the screen keeps its cells, each of them dark or lit.
Main exports: State.Sound, represents_respond, represents_after, represents_after_of_built,
  operations_never_trap
-/
import ChipEight.Proofs.Checked.Refinement
import ChipEight.Proofs.Faults

namespace ChipEight

namespace Checked

open Interpreter (Operation)

variable {c : Interpreter} {s : State} {operation : Operation} {place : OffScreen}

/-- What holds of a state between operations. -/
structure State.Sound (s : State) : Prop where
  stackPointer : s.stackPointer ≤ 16
  size : s.cells.size = 2048
  binary : ∀ cell ∈ s.cells, cell = 0 ∨ cell = 1

/-- A state that stands for a reachable interpreter is sound. -/
theorem Represents.sound (represents : Represents s c) (wellFormed : c.WellFormed) : s.Sound where
  stackPointer := by
    rw [UInt8.le_iff_toNat_le, represents.stackPointer]
    exact wellFormed.room
  size := by
    rw [represents.cells, Vector.size_toArray]
  binary := by
    intro cell member
    rw [represents.cells, Vector.mem_toArray_iff] at member
    obtain ⟨i, inside, rfl⟩ := Vector.mem_iff_getElem.mp member
    exact wellFormed.binary ⟨i, inside⟩

/-! ### Runs -/

/-- An operation, whether it goes through or stops, leaves a state that stands for the interpreter
    after it. -/
theorem represents_respond (represents : Represents s c) (wellFormed : c.WellFormed)
    (few : (c.respond operation).2.faults < UInt64.size) :
    Represents (respond operation s).2 (c.respond operation).2 := by
  cases named : operation.offScreen? with
  | none =>
      obtain ⟨s', ends, represents'⟩ := performs_respond wellFormed named few s represents
      rw [ends]
      exact represents'
  | some place =>
      rw [stops_respond s named, respond_of_offScreen named]
      exact represents

/-- A run of the array machine stands for the run of the interpreter. -/
theorem represents_after (represents : Represents s c) (wellFormed : c.WellFormed)
    {history : List Operation}
    (few : c.faults + (c.turns history).countP Turn.isFault < UInt64.size) :
    Represents (s.after history) (c.after history) := by
  induction history using List.reverseRecOn with
  | nil => exact represents
  | append_singleton history operation inductionHypothesis =>
      have counted := Nat.lt_of_le_of_lt (c.faults_after (history ++ [operation])) few
      rw [Interpreter.after_concat] at counted ⊢
      rw [Interpreter.turns_concat, List.countP_append, ← Nat.add_assoc] at few
      -- If the count has room at the end, it had room before the last operation.
      have earlier := inductionHypothesis (Nat.lt_of_le_of_lt (Nat.le_add_right _ _) few)
      rw [State.after, List.foldl_concat]
      exact represents_respond earlier (wellFormed.after history) counted

/-- From a build on, a run stands for the run of the interpreter as long as fewer than 2 ^ 64 faults
    occur. -/
theorem represents_after_of_built {setup : Setup} {entropy : Cipher.Key}
    (built : setup.build entropy = .ok c) (represents : Represents s c) {history : List Operation}
    (few : (c.turns history).countP Turn.isFault < 2 ^ 64) :
    Represents (s.after history) (c.after history) := by
  have wellFormed : c.WellFormed := Interpreter.Built.wellFormed ⟨setup, entropy, built⟩
  refine represents_after represents wellFormed ?_
  rw [(Setup.build_eq_ok built).2.2.2, Nat.zero_add]
  exact few

/-- The array machine that is built with an interpreter goes through every session with the
    interpreter's answers, as long as fewer than 2 ^ 64 faults occur, and is sound between the
    operations. Only a place off the screen, which the interpreter refuses, stops the machine, and
    then nothing has changed. -/
theorem operations_never_trap {setup : Setup} {entropy : Cipher.Key}
    (built : setup.build entropy = .ok c) :
    ∃ fresh, build setup (State.blank setup entropy) = (.ok (.ok ()), fresh) ∧
      ∀ (history : List Operation) (operation : Operation),
        (c.turns (history ++ [operation])).countP Turn.isFault < 2 ^ 64 →
          (fresh.after history).Sound ∧ Represents (fresh.after history) (c.after history) ∧
          (operation.offScreen? = none →
            ∃ s', respond operation (fresh.after history) =
                (.ok ((c.after history).respond operation).1, s') ∧
              s'.Sound ∧ Represents s' (c.after (history ++ [operation]))) ∧
          ∀ place, operation.offScreen? = some place →
            respond operation (fresh.after history) =
                (.error (.offScreen place), fresh.after history) ∧
              (c.after history).respond operation =
                (.machine (.screen (.refused place)), c.after history) := by
  obtain ⟨fresh, ends, represents⟩ := ends_build built
  obtain ⟨-, -, -, unfaulted⟩ := Setup.build_eq_ok built
  have wellFormed : c.WellFormed := Interpreter.Built.wellFormed ⟨setup, entropy, built⟩
  refine ⟨fresh, ends, fun history operation few => ?_⟩
  have fewAll : c.faults + (c.turns (history ++ [operation])).countP Turn.isFault < UInt64.size := by
    rw [unfaulted, Nat.zero_add]
    exact few
  have counted := Nat.lt_of_le_of_lt (c.faults_after (history ++ [operation])) fewAll
  have fewBefore : c.faults + (c.turns history).countP Turn.isFault < UInt64.size := by
    rw [Interpreter.turns_concat, List.countP_append, ← Nat.add_assoc] at fewAll
    exact Nat.lt_of_le_of_lt (Nat.le_add_right _ _) fewAll
  have before := represents_after represents wellFormed fewBefore
  have reached := wellFormed.after history
  rw [Interpreter.after_concat] at counted ⊢
  refine ⟨before.sound reached, before, fun named => ?_, fun place named => ?_⟩
  · obtain ⟨s', goes, represents'⟩ := performs_respond reached named counted _ before
    exact ⟨s', goes, represents'.sound (reached.respond operation), represents'⟩
  · exact ⟨stops_respond _ named, respond_of_offScreen named⟩

/-- A program that draws a glyph goes through its drawing step, after a fault and the inversion of
    the last pixel of the screen; the pixel behind it stops the machine. -/
theorem operations_never_trap_drawing :
    ∃ fresh, build { program := [0xFF, 0xFF, 0xD0, 0x05], seed? := some 0 }
        (State.blank { program := [0xFF, 0xFF, 0xD0, 0x05], seed? := some 0 } (Vector.replicate 8 0)) =
          (.ok (.ok ()), fresh) ∧
      (∃ s', respond .step (fresh.after [.step, .machine (.screen (.toggle 63 31))]) =
        (.ok (.outcome (.executed (.draw 0 0 5))), s') ∧ s'.Sound) ∧
      respond (.machine (.screen (.toggle 64 31))) fresh = (.error (.offScreen ⟨64, 31⟩), fresh) := by
  obtain ⟨few, fewer, drawn⟩ :
      ((Interpreter.ofProgram [0xFF, 0xFF, 0xD0, 0x05]).turns
        [.step, .machine (.screen (.toggle 63 31)), .step]).countP Turn.isFault < 2 ^ 64 ∧
      ((Interpreter.ofProgram [0xFF, 0xFF, 0xD0, 0x05]).turns
        [.machine (.screen (.toggle 64 31))]).countP Turn.isFault < 2 ^ 64 ∧
      (((Interpreter.ofProgram [0xFF, 0xFF, 0xD0, 0x05]).after
        [.step, .machine (.screen (.toggle 63 31))]).respond .step).1 =
          .outcome (.executed (.draw 0 0 5)) := by
    decide +kernel
  obtain ⟨fresh, built, safe⟩ := operations_never_trap
    (Interpreter.build_ofProgram [0xFF, 0xFF, 0xD0, 0x05] (Vector.replicate 8 0) (by decide))
  obtain ⟨-, -, goes, -⟩ := safe [.step, .machine (.screen (.toggle 63 31))] .step few
  obtain ⟨s', ends, sound, -⟩ := goes rfl
  obtain ⟨-, -, -, stops⟩ := safe [] (.machine (.screen (.toggle 64 31))) fewer
  rw [drawn] at ends
  exact ⟨fresh, built, ⟨s', ends, sound⟩, (stops ⟨64, 31⟩ rfl).1⟩

end Checked

end ChipEight
