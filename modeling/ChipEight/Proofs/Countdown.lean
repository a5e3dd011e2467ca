/-
Module: ChipEight.Proofs.Countdown
Purpose: Timers count down from what they were assigned last. Over a session a timer sees two kinds of
  events: something is assigned to it, or it ticks. So it stands at the value of the last assignment,
  less the ticks since then, and at zero once they are more. In a paced run the ticks between two
  cycles are a difference of two quotients, which is what a program that sets the delay timer in one
  cycle reads off it in another.
Main exports: TimerEvent, TimerEvent.last, TimerEvent.ticksSince, TimerEvent.toNat_foldl,
  Interpreter.timerEvents, Interpreter.value_after, Playback.toNat_value_ready,
  Timer.counts_down_from_last_assignment
-/
import ChipEight.Proofs.Cycles
import ChipEight.Proofs.Devices

namespace ChipEight

open Interpreter (Operation)

/-- A timer loses one with a tick, if it has one to lose. -/
theorem Machine.toNat_countDown (v : UInt8) : (countDown v).toNat = v.toNat - 1 := by
  rw [countDown]
  split
  case isTrue zero =>
      rw [zero]
      rfl
  case isFalse nonzero =>
      have one : 1 ≤ v := by
        rw [UInt8.le_iff_toNat_le]
        exact Nat.pos_of_ne_zero fun zero => nonzero (UInt8.toNat_inj.mp zero)
      exact UInt8.toNat_sub_of_le v 1 one

/-! ### What a timer sees -/

/-- What can happen to a timer. -/
inductive TimerEvent where
  | assigned (value : UInt8)
  | ticked
deriving DecidableEq, Repr

namespace TimerEvent

/-- What a timer stands at after an event. -/
def apply (v : UInt8) : TimerEvent → UInt8
  | assigned value => value
  | ticked => Machine.countDown v

def value? : TimerEvent → Option UInt8
  | assigned value => some value
  | ticked => none

/-- The value that was assigned last. A timer to which nothing was assigned began with zero. -/
def last (events : List TimerEvent) : UInt8 := (events.filterMap value?).getLast?.getD 0

/-- How often the timer ticked since the last assignment. -/
def ticksSince (events : List TimerEvent) : Nat := (events.rtakeWhile (· = ticked)).length

@[simp] theorem last_concat_assigned (events : List TimerEvent) (value : UInt8) :
    last (events ++ [assigned value]) = value := by
  simp [last, value?]

@[simp] theorem last_concat_ticked (events : List TimerEvent) :
    last (events ++ [ticked]) = last events := by
  simp [last, value?]

@[simp] theorem ticksSince_concat_assigned (events : List TimerEvent) (value : UInt8) :
    ticksSince (events ++ [assigned value]) = 0 := by
  simp [ticksSince]

@[simp] theorem ticksSince_concat_ticked (events : List TimerEvent) :
    ticksSince (events ++ [ticked]) = ticksSince events + 1 := by
  simp [ticksSince]

/-- After a series of events that a timer begins with zero, it stands at the last value less the ticks
    since. -/
theorem toNat_foldl (events : List TimerEvent) :
    (events.foldl apply 0).toNat = (last events).toNat - ticksSince events := by
  induction events using List.reverseRecOn with
  | nil => rfl
  | append_singleton events event inductionHypothesis =>
      rw [List.foldl_concat]
      cases event with
      | assigned value => simp [apply]
      | ticked =>
          rw [apply, Machine.toNat_countDown, inductionHypothesis, last_concat_ticked,
            ticksSince_concat_ticked, Nat.sub_sub]

end TimerEvent

namespace Interpreter

/-- The value that the operation by itself assigns to a timer, if it does: a host chooses one, and a
    restart makes it zero. -/
def Operation.timerValue? : Operation → Timer → Option UInt8
  | .machine (.setDelayTimer value), .delay => some value
  | .machine (.setSoundTimer value), .sound => some value
  | .machine .restart, _ | .reset, _ => some 0
  | _, _ => none

variable {c c' e : Interpreter} {operation : Operation} {timer : Timer}

/-- The value that a turn assigns to a timer, if it does: that of the operation, or the value of the
    register that an executed instruction copies. -/
def assigned? (c : Interpreter) (timer : Timer) (operation : Operation) : Option UInt8 :=
  (operation.timerValue? timer).or
    (((c.turn operation).outcome?.bind (·.timerSource? timer)).map c.machine.register)

/-- What a timer sees of a turn, if anything. -/
def timerEvent? (c : Interpreter) (timer : Timer) (operation : Operation) : Option TimerEvent :=
  if operation.ticks then some .ticked else (c.assigned? timer operation).map .assigned

/-- What a timer sees of a session. -/
def timerEvents (c : Interpreter) (timer : Timer) : List Operation → List TimerEvent
  | [] => []
  | operation :: rest =>
    (c.timerEvent? timer operation).toList ++ (c.respond operation).2.timerEvents timer rest

theorem timerEvent?_of_unprimed (unprimed : c.primed? operation = none) :
    c.timerEvent? timer operation =
      if operation.ticks then some .ticked else (operation.timerValue? timer).map .assigned := by
  rw [timerEvent?, assigned?, outcome?_of_unprimed unprimed]
  simp

/-- A turn that carries out a word changes a timer as its outcome says. -/
theorem value_of_primed (primed : c.primed? operation = some e) :
    timer.value (c.respond operation).2.machine =
      (c.timerEvent? timer operation).toList.foldl TimerEvent.apply (timer.value c.machine) := by
  have frame : e.machine.DeviceFrame e.execute.1.draws e.execute.1.timerSource?
      e.execute.2.machine := deviceFrame_of_execute rfl
  have event : c.timerEvent? timer operation =
      ((e.execute.1.timerSource? timer).map c.machine.register).map .assigned := by
    rw [timerEvent?, assigned?, outcome?_of_primed primed]
    cases operation <;> cases primed <;> rfl
  have same : timer.value e.machine = timer.value c.machine ∧
      e.machine.register = c.machine.register := by
    obtain ⟨opcode, rfl⟩ := eq_of_primed primed
    cases timer <;> exact ⟨rfl, rfl⟩
  rw [respond_of_primed primed, frame.timer, event, same.1, same.2]
  cases e.execute.1.timerSource? timer <;> rfl

/-- A host changes a timer by ticking or by assigning to it. -/
theorem value_machine (m : Machine) (timer : Timer) (operation : Machine.Operation) :
    timer.value (m.perform operation).2 =
      (if Operation.ticks (.machine operation) then some TimerEvent.ticked
        else (Operation.timerValue? (.machine operation) timer).map .assigned).toList.foldl
          TimerEvent.apply (timer.value m) := by
  by_cases loads : Operation.loads (.machine operation) = true
  · obtain ⟨memory, font, loaded⟩ := frame_of_loads m loads
    rw [loaded]
    cases operation with
    | loadProgram | loadFont => cases timer <;> rfl
    | _ => cases loads
  · cases operation with
    | loadProgram | loadFont => exact absurd rfl loads
    | _ => cases timer <;> rfl

/-- A turn changes a timer by what the timer sees of it. -/
theorem value_respond (wellFormed : c.WellFormed) (timer : Timer) (operation : Operation) :
    timer.value (c.respond operation).2.machine =
      (c.timerEvent? timer operation).toList.foldl TimerEvent.apply (timer.value c.machine) := by
  cases operation with
  | execute | step => exact value_of_primed rfl
  | reset =>
      rw [timerEvent?_of_unprimed rfl, respond, wellFormed.reset]
      cases timer <;> rfl
  | fetch | tick =>
      rw [timerEvent?_of_unprimed rfl]
      cases timer <;> rfl
  | machine operation =>
      rw [timerEvent?_of_unprimed rfl]
      exact value_machine c.machine timer operation

/-- A session changes a timer by all that the timer sees of it. -/
theorem value_after (wellFormed : c.WellFormed) (timer : Timer) (operations : List Operation) :
    timer.value (c.after operations).machine =
      (c.timerEvents timer operations).foldl TimerEvent.apply (timer.value c.machine) := by
  induction operations generalizing c with
  | nil => rfl
  | cons operation rest inductionHypothesis =>
      rw [after_cons, inductionHypothesis (wellFormed.respond operation),
        value_respond wellFormed, timerEvents, List.foldl_append]

/-- A build leaves both timers at zero. -/
theorem Built.value_eq_zero (built : c.Built) (timer : Timer) : timer.value c.machine = 0 := by
  obtain ⟨memory, font, initial⟩ := built.machine_eq
  rw [initial]
  cases timer <;> rfl

/-- Ticks take from a timer what it has. -/
theorem toNat_value_ticks (c : Interpreter) (timer : Timer) (n : Nat) :
    (timer.value (c.ticks n).machine).toNat = (timer.value c.machine).toNat - n := by
  induction n generalizing c with
  | zero => rfl
  | succ n inductionHypothesis =>
      have ticked : timer.value c.tick.machine = Machine.countDown (timer.value c.machine) := by
        cases timer <;> rfl
      rw [ticks, inductionHypothesis, ticked, Machine.toNat_countDown, Nat.sub_sub, Nat.add_comm]

/-- A step changes a timer as its outcome says. -/
theorem value_step (c : Interpreter) (timer : Timer) :
    timer.value c.step.2.machine =
      ((c.step.1.timerSource? timer).map c.machine.register).getD (timer.value c.machine) := by
  have frame : c.fetch.machine.DeviceFrame c.step.1.draws c.step.1.timerSource?
      c.step.2.machine := deviceFrame_of_execute rfl
  have kept : timer.value c.fetch.machine = timer.value c.machine := by cases timer <;> rfl
  rw [frame.timer, kept]
  rfl

/-- Setting the delay timer copies a register to it. -/
theorem value_step_of_setDelay {x : Nibble} (ran : c.step.1 = .executed (.setDelay x)) :
    Timer.delay.value c.step.2.machine = c.machine.register x := by
  rw [value_step, ran]
  rfl

/-- Reading the delay timer copies it to a register. -/
theorem register_step_of_loadDelay {y : Nibble} (ran : c.step.1 = .executed (.loadDelay y)) :
    c.step.2.machine.register y = Timer.delay.value c.machine := by
  have executed : c.fetch.execute = (.executed (.loadDelay y), c.step.2) := Prod.ext ran rfl
  obtain ⟨flow, m, carried, stepped⟩ := carried_of_executed executed
  cases carried
  rw [stepped]
  change (c.machine.setRegister y c.machine.delayTimer).register y = _
  rw [Machine.register_setRegister, if_pos rfl]
  rfl

end Interpreter

/-! ### Paced runs -/

namespace Playback

variable {rate first last : Nat} {p : Playback} {timer : Timer}

/-- Between the steps of two cycles in a row a timer loses the ticks that are due. -/
theorem toNat_value_ready_succ (rate : Nat) (p : Playback) (timer : Timer) (k : Nat) :
    (timer.value (p.ready rate (k + 1)).machine).toNat =
      (timer.value (p.ready rate k).step.2.machine).toNat - Pacing.ticksDue rate (k + 1) := by
  rw [ready, Interpreter.toNat_value_ticks, interpreter_atCycle_succ]
  -- The frame that a cycle takes is no part of a timer.
  cases timer <;> rfl

/-- While no step assigns anything to a timer, it loses the ticks that fall due: a difference of two
    quotients, however many cycles it takes. -/
theorem toNat_value_ready (order : first < last)
    (alone : ∀ k, first < k → k < last → (p.ready rate k).step.1.timerSource? timer = none) :
    (timer.value (p.ready rate last).machine).toNat =
      (timer.value (p.ready rate first).step.2.machine).toNat -
        (Pacing.ticksBefore rate (last + 1) - Pacing.ticksBefore rate (first + 1)) := by
  induction last, order using Nat.le_induction with
  | base =>
      have due := Pacing.ticksBefore_succ rate (first + 1)
      rw [toNat_value_ready_succ, due, Nat.add_sub_cancel_left]
  | succ k order inductionHypothesis =>
      have untouched := alone k order (Nat.lt_succ_self k)
      have due := Pacing.ticksBefore_succ rate (k + 1)
      have grown : Pacing.ticksBefore rate (first + 1) ≤ Pacing.ticksBefore rate (k + 1) :=
        Pacing.ticksBefore_mono rate (Nat.le_succ_of_le order)
      have before := inductionHypothesis fun j above below =>
        alone j above (Nat.lt_succ_of_lt below)
      rw [toNat_value_ready_succ, Interpreter.value_step, untouched, Option.map_none,
        Option.getD_none, before, Nat.sub_sub, due, Nat.sub_add_comm grown]

end Playback

namespace Timer

/-- Timers count down from what they were assigned last. After every session a timer stands at the
    last value that an instruction, a host or a restart assigned to it, or at zero if there was none,
    less the ticks since then. So in a paced run a program that sets the delay timer in cycle `first`
    and reads it in cycle `last` finds the value less a difference of two quotients; and the words
    of 64 bits in which the ticks are counted come out right. -/
theorem counts_down_from_last_assignment :
    (∀ c : Interpreter, c.Built → ∀ (history : List Operation) (timer : Timer),
      (timer.value (c.after history).machine).toNat =
        (TimerEvent.last (c.timerEvents timer history)).toNat -
          TimerEvent.ticksSince (c.timerEvents timer history)) ∧
    ∀ (o : CommandLine.Options) (c : Interpreter) (first last : Nat) (x y : Nibble),
      first < last → 60 * (last + 1) < UInt64.size →
      ((o.begun c).ready o.ips.toNat first).step.1 = .executed (.setDelay x) →
      (∀ k z, first < k → k < last →
        ((o.begun c).ready o.ips.toNat k).step.1 ≠ .executed (.setDelay z)) →
      ((o.begun c).ready o.ips.toNat last).step.1 = .executed (.loadDelay y) →
      (((o.begun c).ready o.ips.toNat last).step.2.machine.register y).toNat =
          (((o.begun c).ready o.ips.toNat first).machine.register x).toNat -
            (60 * (last + 1) / o.ips.toNat - 60 * (first + 1) / o.ips.toNat) ∧
        ∀ k ≤ last,
          (Pacing.wordTicksDue o.ips (UInt64.ofNat k)).toNat = Pacing.ticksDue o.ips.toNat k := by
  constructor
  · intro c built history timer
    rw [Interpreter.value_after built.wellFormed, built.value_eq_zero, TimerEvent.toNat_foldl]
  · intro o c first last x y order room sets alone reads
    have untouched : ∀ k, first < k → k < last →
        ((o.begun c).ready o.ips.toNat k).step.1.timerSource? .delay = none := by
      intro k above below
      exact Outcome.timerSource?_delay_eq_none fun z => alone k z above below
    have counted := Playback.toNat_value_ready order untouched
    rw [Interpreter.value_step_of_setDelay sets] at counted
    rw [Interpreter.register_step_of_loadDelay reads, counted, Nat.mul_comm 60, Nat.mul_comm 60]
    exact ⟨rfl, fun k le => Pacing.toNat_wordTicksDue o.ips (by omega)⟩

/-- A program that sets the delay timer to nine and then reads it over and over. -/
def stopwatch : Interpreter :=
  Interpreter.ofProgram [0x60, 0x09, 0xF0, 0x15, 0xF1, 0x07, 0x12, 0x04]

/-- At thirty instructions a second, two ticks are due before each. -/
def thirtyASecond : CommandLine.Options := { rom := "stopwatch.ch8", ips := 30 }

/-- A host sets the sound timer to one, and three ticks later it stands at zero; set by cycle number
    one, the delay timer has lost six by the time that cycle number four reads it. -/
theorem counts_down_from_last_assignment_stopwatch :
    TimerEvent.last (stopwatch.timerEvents .sound
      [.machine (.setSoundTimer 1), .tick, .step, .tick, .tick]) = 1 ∧
    TimerEvent.ticksSince (stopwatch.timerEvents .sound
      [.machine (.setSoundTimer 1), .tick, .step, .tick, .tick]) = 3 ∧
    (Timer.sound.value (stopwatch.after
      [.machine (.setSoundTimer 1), .tick, .step, .tick, .tick]).machine).toNat = 1 - 3 ∧
    (((thirtyASecond.begun stopwatch).ready 30 4).step.2.machine.register 1).toNat =
      9 - (60 * (4 + 1) / 30 - 60 * (1 + 1) / 30) := by
  obtain ⟨stands, paced⟩ := counts_down_from_last_assignment
  have assigned : TimerEvent.last (stopwatch.timerEvents .sound
      [.machine (.setSoundTimer 1), .tick, .step, .tick, .tick]) = 1 := by decide +kernel
  have ticked : TimerEvent.ticksSince (stopwatch.timerEvents .sound
      [.machine (.setSoundTimer 1), .tick, .step, .tick, .tick]) = 3 := by decide +kernel
  have left := stands stopwatch (Interpreter.built_ofProgram (by decide))
    [.machine (.setSoundTimer 1), .tick, .step, .tick, .tick] .sound
  rw [assigned, ticked] at left
  obtain ⟨nine, sets, reads, jumps, again⟩ :
      ((thirtyASecond.begun stopwatch).ready 30 1).machine.register 0 = 9 ∧
      ((thirtyASecond.begun stopwatch).ready 30 1).step.1 = .executed (.setDelay 0) ∧
      ((thirtyASecond.begun stopwatch).ready 30 2).step.1 = .executed (.loadDelay 1) ∧
      ((thirtyASecond.begun stopwatch).ready 30 3).step.1 =
        .executed (.jump (lowAddress 0x204)) ∧
      ((thirtyASecond.begun stopwatch).ready 30 4).step.1 = .executed (.loadDelay 1) := by
    decide +kernel
  have alone : ∀ k z, 1 < k → k < 4 →
      ((thirtyASecond.begun stopwatch).ready 30 k).step.1 ≠ .executed (.setDelay z) := by
    intro k z above below
    have between : k = 2 ∨ k = 3 := by omega
    rcases between with rfl | rfl
    · simp [reads]
    · simp [jumps]
  obtain ⟨read, -⟩ :=
    paced thirtyASecond stopwatch 1 4 0 1 (by decide) (by decide) sets alone again
  have rate : thirtyASecond.ips.toNat = 30 := rfl
  rw [rate, nine] at read
  exact ⟨assigned, ticked, left, read⟩

end Timer

end ChipEight
