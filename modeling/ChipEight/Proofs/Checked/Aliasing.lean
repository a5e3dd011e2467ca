/-
Module: ChipEight.Proofs.Checked.Aliasing
Purpose: The four high bits of an address never matter on the arrays either, and the dead cells of the
  stack do not matter at all. A state with a sound stack pointer stands for an interpreter, so that
  two states at other addresses of the same cells stand for two interpreters that differ in the same
  way, and follow them through every session.
Main exports: State.openCalls, State.Alias, State.interpreter, State.answers, State.SideBySide,
  high_address_bits_never_matter
-/
import ChipEight.Proofs.Aliasing
import ChipEight.Proofs.Checked.Safety
import ChipEight.Proofs.Reset

namespace ChipEight.Checked

open Interpreter (Operation Answer)

variable {R : UInt16 → UInt16 → Prop} {c c' : Interpreter} {s s' : State}

/-! ### States at other addresses -/

/-- The cells of the stack that are in use, the oldest call first. -/
def State.openCalls (s : State) : List UInt16 := s.stack.toList.take s.stackPointer.toNat

/-- The states agree in everything but addresses and dead cells of the stack: program counters and open
    calls mean the same cells, and the index registers are no further apart than `R` allows. -/
structure State.Alias (R : UInt16 → UInt16 → Prop) (s s' : State) : Prop where
  pc : SameCell s.pc s'.pc
  index : R s.index s'.index
  openCalls : List.Forall₂ SameCell s.openCalls s'.openCalls
  others : s' = { s with pc := s'.pc, index := s'.index, stack := s'.stack }

/-- The interpreter that a state with all cells of the screen stands for. -/
def State.interpreter (s : State) (sized : s.cells.size = 2048) : Interpreter where
  machine :=
    { memory := ⟨s.memory⟩
      registers := s.registers
      index := s.index
      pc := s.pc
      stack := s.openCalls.reverse
      delayTimer := s.delayTimer
      soundTimer := s.soundTimer
      screen := ⟨⟨s.cells, sized⟩, s.pending⟩
      keypad := ⟨s.keys⟩
      opcode := s.opcode
      keysHeld? := s.keysHeld?.map Keypad.mk
      font := s.font }
  dialect := s.dialect
  generator := s.generator
  program := s.program
  faults := s.faults.toNat

theorem represents_interpreter (room : s.stackPointer ≤ 16) (sized : s.cells.size = 2048) :
    Represents s (s.interpreter sized) := by
  have deep : s.stack.toList.length = 16 := Vector.length_toList
  have counted : s.openCalls.length = s.stackPointer.toNat := by
    rw [State.openCalls, List.length_take, deep]
    exact Nat.min_eq_left (UInt8.le_iff_toNat_le.mp room)
  refine ⟨rfl, rfl, rfl, rfl, ?_, ?_, rfl, rfl, rfl, rfl, rfl, rfl, ?_, rfl, rfl, rfl, rfl, rfl⟩
  · exact (List.length_reverse.trans counted).symm
  · show s.stack.toList.take s.openCalls.reverse.length = s.openCalls.reverse.reverse
    rw [List.length_reverse, counted, List.reverse_reverse, State.openCalls]
  · show s.keysHeld? = (s.keysHeld?.map Keypad.mk).map Keypad.keys
    rw [Option.map_map]
    exact Option.map_id'.symm

/-- The open calls of a state are those of the interpreter that it stands for. -/
theorem Represents.openCalls (represents : Represents s c) :
    s.openCalls = c.machine.stack.reverse := by
  rw [State.openCalls, represents.stackPointer, represents.stack]

/-- States that stand for interpreters at other addresses are at other addresses. -/
theorem Represents.alike (represents : Represents s c) (represents' : Represents s' c')
    (alike : c.Alias R c') : s.Alias R s' := by
  obtain ⟨⟨samePc, sameStack, sameIndex⟩⟩ := alike
  refine ⟨?_, ?_, ?_, ?_⟩
  · rw [represents.pc, represents'.pc]
    exact samePc
  · rw [represents.index, represents'.index]
    exact sameIndex
  · rw [represents.openCalls, represents'.openCalls]
    exact List.rel_reverse sameStack
  · have stackPointer : s'.stackPointer.toNat = s.stackPointer.toNat :=
      represents'.stackPointer.trans
        (sameStack.length_eq.symm.trans represents.stackPointer.symm)
    have faults : s'.faults.toNat = s.faults.toNat :=
      represents'.faults.trans represents.faults.symm
    -- All other parts are those of the interpreters, which agree in them.
    cases s
    cases s'
    simp only [State.mk.injEq]
    exact ⟨represents'.memory.trans represents.memory.symm,
      represents'.registers.trans represents.registers.symm, trivial, trivial, trivial,
      UInt8.toNat_inj.mp stackPointer,
      represents'.delayTimer.trans represents.delayTimer.symm,
      represents'.soundTimer.trans represents.soundTimer.symm,
      represents'.cells.trans represents.cells.symm,
      represents'.pending.trans represents.pending.symm,
      represents'.keys.trans represents.keys.symm,
      represents'.opcode.trans represents.opcode.symm,
      represents'.keysHeld?.trans represents.keysHeld?.symm,
      represents'.font.trans represents.font.symm,
      represents'.dialect.trans represents.dialect.symm,
      represents'.generator.trans represents.generator.symm,
      represents'.program.trans represents.program.symm,
      UInt64.toNat_inj.mp faults⟩

/-- States at other addresses stand for interpreters at other addresses. -/
theorem State.Alias.interpreter (alike : s.Alias R s') (sized : s.cells.size = 2048)
    (sized' : s'.cells.size = 2048) : (s.interpreter sized).Alias R (s'.interpreter sized') := by
  obtain ⟨samePc, sameIndex, sameCalls, others⟩ := alike
  revert samePc sameIndex sameCalls sized'
  rw [others]
  intro sized' samePc sameIndex sameCalls
  exact .moved (.moved samePc (List.rel_reverse sameCalls) sameIndex)

/-! ### Sessions -/

/-- What a host is told in the course of a session. -/
def State.answers (s : State) : List Operation → List (Except Trap Answer)
  | [] => []
  | operation :: rest => (respond operation s).1 :: (respond operation s).2.answers rest

/-- A session of operations that stay on the screen goes through with the answers of the interpreter,
    as long as the count of faults has room for it. -/
theorem Represents.session (represents : Represents s c) {operations : List Operation}
    (named : ∀ operation ∈ operations, operation.offScreen? = none)
    (fits : .reset ∈ operations → c.program.length ≤ Machine.maxProgramSize)
    (few : c.faults + operations.length < UInt64.size) :
    s.answers operations = (c.turns operations).map (fun t => .ok t.answer) ∧
      Represents (s.after operations) (c.after operations) := by
  induction operations generalizing s c with
  | nil => exact ⟨rfl, represents⟩
  | cons operation rest inductionHypothesis =>
      have counted : (c.respond operation).2.faults ≤ c.faults + 1 :=
        (c.faults_respond_le operation).trans (Nat.add_le_add_left List.countP_le_length _)
      rw [List.length_cons, Nat.add_comm rest.length, ← Nat.add_assoc] at few
      have fewFirst := counted.trans_lt (Nat.lt_of_le_of_lt (Nat.le_add_right _ _) few)
      have fewRest := Nat.lt_of_le_of_lt (Nat.add_le_add_right counted _) few
      obtain ⟨s₁, goes, represents₁⟩ := performs_respond_of_fits
        (fun isReset => fits (isReset ▸ List.mem_cons_self)) (named _ List.mem_cons_self) fewFirst
        s represents
      obtain ⟨answers, after⟩ := inductionHypothesis represents₁
        (fun next member => named next (List.mem_cons_of_mem _ member))
        (fun member => by
          rw [(Interpreter.sameSettings_respond c operation).program]
          exact fits (List.mem_cons_of_mem _ member))
        fewRest
      rw [Ends] at goes
      constructor
      · rw [State.answers, goes, answers]
        rfl
      · rw [State.after, List.foldl_cons, goes]
        exact after

/-- Two states go through a session side by side: both go through, they answer alike all the way, and
    in the end they agree in everything but addresses and dead cells. -/
structure State.SideBySide (R : UInt16 → UInt16 → Prop) (s s' : State)
    (operations : List Operation) : Prop where
  answers : List.Forall₂
    (fun result result' => ∃ answer answer' : Answer,
      result = .ok answer ∧ result' = .ok answer' ∧ answer.Alias answer')
    (s.answers operations) (s'.answers operations)
  after : (s.after operations).Alias R (s'.after operations)

/-- Every session goes side by side, if I is the same or nothing is added to it. -/
theorem State.Alias.session (lenient : Lenient R) (alike : s.Alias R s')
    (room : s.stackPointer ≤ 16) (sized : s.cells.size = 2048) {operations : List Operation}
    (named : ∀ operation ∈ operations, operation.offScreen? = none)
    (fits : .reset ∈ operations → s.program.length ≤ Machine.maxProgramSize)
    (few : s.faults.toNat + operations.length < UInt64.size)
    (agrees : (∀ a b, R a b → a = b) ∨
      ∀ x, .ok (.outcome (.executed (.addIndex x))) ∉ s.answers operations) :
    State.SideBySide R s s' operations := by
  have others := alike.others
  have room' : s'.stackPointer ≤ 16 := by rw [others]; exact room
  have sized' : s'.cells.size = 2048 := by rw [others]; exact sized
  have fits' : .reset ∈ operations → s'.program.length ≤ Machine.maxProgramSize := by
    rw [others]
    exact fits
  have few' : s'.faults.toNat + operations.length < UInt64.size := by rw [others]; exact few
  obtain ⟨answers, after⟩ := (represents_interpreter room sized).session named fits few
  obtain ⟨answers', after'⟩ := (represents_interpreter room' sized').session named fits' few'
  have agreesTurns : (∀ a b, R a b → a = b) ∨
      ∀ t ∈ (s.interpreter sized).turns operations, t.addsToIndex = false := by
    refine agrees.imp_right fun unadded t member => Bool.eq_false_iff.mpr fun adds => ?_
    obtain ⟨x, added⟩ := Turn.addsToIndex_iff.mp adds
    apply unadded x
    rw [answers, ← added]
    exact List.mem_map_of_mem member
  have together := (alike.interpreter sized sized').session lenient agreesTurns
  refine ⟨?_, after.alike after' together.after⟩
  rw [answers, answers', List.forall₂_map_left_iff, List.forall₂_map_right_iff]
  exact together.answers.imp fun t t' alike => ⟨_, _, rfl, rfl, alike⟩

/-- The high bits of an address never matter. Two interpreters that agree in everything but the high
    bits of the program counter and of the open calls go through every session side by side: the same
    instructions are executed, both wait or the same faults occur, and they stay as far apart as they
    were. And if nothing is added to I, the high bits of I do not matter either. The same holds of the
    arrays, which need not agree in the dead cells of the stack, as long as the count of faults has
    room, no place off the screen is named, and a program that is reset fits. -/
theorem high_address_bits_never_matter :
    (∀ (c c' : Interpreter) (operations : List Operation),
      (Interpreter.Alias Eq c c' → Interpreter.SideBySide Eq c c' operations) ∧
      (Interpreter.Alias SameCell c c' → (∀ t ∈ c.turns operations, t.addsToIndex = false) →
        Interpreter.SideBySide SameCell c c' operations)) ∧
    ∀ (s s' : State) (operations : List Operation), s.stackPointer ≤ 16 → s.cells.size = 2048 →
      (∀ operation ∈ operations, operation.offScreen? = none) →
      (.reset ∈ operations → s.program.length ≤ Machine.maxProgramSize) →
      s.faults.toNat + operations.length < 2 ^ 64 →
        (State.Alias Eq s s' → State.SideBySide Eq s s' operations) ∧
        (State.Alias SameCell s s' →
          (∀ x, .ok (.outcome (.executed (.addIndex x))) ∉ s.answers operations) →
          State.SideBySide SameCell s s' operations) := by
  refine ⟨fun c c' operations => ⟨?_, ?_⟩, ?_⟩
  · exact fun alike => alike.session lenient_eq (.inl fun _ _ same => same)
  · exact fun alike unadded => alike.session lenient_sameCell (.inr unadded)
  · intro s s' operations room sized named fits few
    refine ⟨?_, ?_⟩
    · exact fun alike =>
        alike.session lenient_eq room sized named fits few (.inl fun _ _ same => same)
    · exact fun alike unadded =>
        alike.session lenient_sameCell room sized named fits few (.inr unadded)

/-- A program that calls a subroutine, which stores a number at I, and meets an unknown word when it
    is back. -/
def nearCaller : Interpreter :=
  Interpreter.ofProgram [0x22, 0x06, 0xFF, 0xFF, 0x00, 0x00, 0xF0, 0x33, 0x00, 0xEE]

/-- The same program at higher addresses of the same cells. -/
def farCaller : Interpreter :=
  { nearCaller with machine := nearCaller.machine.readdress 0x1200 [] 0xF000 }

/-- One call is open, and a return has been fetched. -/
def nearReturn : State :=
  { State.blank {} (Vector.replicate 8 0) with
    opcode := 0x00EE, stackPointer := 1, stack := #v[0x300, 0, 0, 0, 0, 0, 0, 0, 0, 0, 0, 0, 0, 0, 0, 0] }

/-- The same at higher addresses, with other dead cells. -/
def farReturn : State :=
  { nearReturn with
    pc := 0xF200, stack := #v[0x1300, 7, 7, 7, 7, 7, 7, 7, 7, 7, 7, 7, 7, 7, 7, 7] }

/-- The subroutine runs at both addresses, and both programs fail in the end, each at its own place;
    and the arrays return to both callers. -/
theorem high_address_bits_never_matter_farCaller :
    Interpreter.SideBySide SameCell nearCaller farCaller
        [.step, .step, .machine (.setKey 3 true), .step, .tick, .step] ∧
      State.SideBySide Eq nearReturn farReturn [.execute, .step] := by
  obtain ⟨interpreters, arrays⟩ := high_address_bits_never_matter
  refine ⟨?_, ?_⟩
  · obtain ⟨-, goes⟩ := interpreters nearCaller farCaller
      [.step, .step, .machine (.setKey 3 true), .step, .tick, .step]
    refine goes (.moved (.moved ?_ .nil ?_)) ?_
    · decide
    · decide
    · decide +kernel
  · obtain ⟨goes, -⟩ := arrays nearReturn farReturn [.execute, .step] (by decide)
      Array.size_replicate (by decide) (by decide) (by decide)
    exact goes ⟨by decide, rfl, .cons (by decide) .nil, rfl⟩

end ChipEight.Checked
