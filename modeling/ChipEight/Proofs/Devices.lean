/-
Module: ChipEight.Proofs.Devices
Purpose: The parts of a machine that a host shows or plays: the screen and the two timers. Two
  instructions draw, and leave a frame waiting; two copy a register into a timer. Every other
  instruction leaves these parts as they are, and so do the words that are passed over.
Main exports: Instruction.draws, Timer, Timer.value, Instruction.timerSource?, Machine.DeviceFrame,
  Machine.deviceFrame_of_carryOut, Interpreter.deviceFrame_of_execute
-/
import ChipEight.Proofs.Invariant

namespace ChipEight

/-- The two timers of a machine. -/
inductive Timer where
  | delay
  | sound
deriving DecidableEq, Repr

/-- What a timer stands at. -/
def Timer.value (timer : Timer) (m : Machine) : UInt8 :=
  match timer with
  | .delay => m.delayTimer
  | .sound => m.soundTimer

/-- The instruction draws on the screen. -/
def Instruction.draws : Instruction → Bool
  | .clearScreen | .draw _ _ _ => true
  | _ => false

/-- The register that the instruction copies into a timer, if it does. -/
def Instruction.timerSource? : Instruction → Timer → Option Nibble
  | .setDelay x, .delay => some x
  | .setSound x, .sound => some x
  | _, _ => none

/-- An instruction that draws was executed. -/
def Outcome.draws : Outcome → Bool
  | .executed i => i.draws
  | _ => false

/-- The register that was copied into a timer, if one was. -/
def Outcome.timerSource? : Outcome → Timer → Option Nibble
  | .executed i, timer => i.timerSource? timer
  | _, _ => none

/-- The instruction that copies a register into a timer. -/
def Timer.setter : Timer → Nibble → Instruction
  | .delay => .setDelay
  | .sound => .setSound

/-- Nothing else than the setter of a timer copies a register to it. -/
theorem Outcome.timerSource?_eq_none {outcome : Outcome} {timer : Timer}
    (other : ∀ x, outcome ≠ .executed (timer.setter x)) : outcome.timerSource? timer = none := by
  cases outcome with
  | executed i =>
      cases timer with
      | delay =>
          cases i with
          | setDelay x => exact absurd rfl (other x)
          | _ => rfl
      | sound =>
          cases i with
          | setSound x => exact absurd rfl (other x)
          | _ => rfl
  | waiting | fault => rfl

theorem Outcome.timerSource?_delay_eq_none {outcome : Outcome}
    (other : ∀ x, outcome ≠ .executed (.setDelay x)) : outcome.timerSource? .delay = none :=
  timerSource?_eq_none other

namespace Machine

variable {m m' : Machine} {d : Dialect} {noise : UInt8} {i : Instruction} {flow : Flow}

/-- What becomes of the devices when something draws or does not, and when it has the given sources
    for the timers. -/
structure DeviceFrame (m : Machine) (draws : Bool) (source? : Timer → Option Nibble)
    (m' : Machine) : Prop where
  screen : draws = false → m'.screen = m.screen
  pending : draws = true → m'.screen.pending = true
  timer : ∀ timer : Timer,
    timer.value m' = ((source? timer).map m.register).getD (timer.value m)

/-- What touches no device keeps to its frame. -/
theorem DeviceFrame.untouched (screen : m'.screen = m.screen)
    (delayTimer : m'.delayTimer = m.delayTimer) (soundTimer : m'.soundTimer = m.soundTimer) :
    m.DeviceFrame false (fun _ => none) m' := by
  refine ⟨fun _ => screen, nofun, ?_⟩
  rintro (_ | _)
  · exact delayTimer
  · exact soundTimer

/-- Every instruction that is carried out keeps to its frame. -/
theorem deviceFrame_of_carryOut (carried : m.carryOut d noise i = .ok (flow, m')) :
    m.DeviceFrame i.draws i.timerSource? m' := by
  cases i with
  | clearScreen | draw =>
      cases carried
      exact ⟨nofun, fun _ => rfl, by rintro (_ | _) <;> rfl⟩
  | setDelay | setSound =>
      cases carried
      exact ⟨fun _ => rfl, nofun, by rintro (_ | _) <;> rfl⟩
  | ret =>
      obtain ⟨caller, rest, -, -, rfl⟩ := carryOut_ret carried
      exact .untouched rfl rfl rfl
  | call addr =>
      rw [carryOut] at carried
      split at carried <;> cases carried
      exact .untouched rfl rfl rfl
  | combine op x y =>
      obtain ⟨registers, same⟩ := m.combine_frame d op x y
      rw [carryOut, same] at carried
      cases carried
      exact .untouched rfl rfl rfl
  | loadRegisters x =>
      obtain ⟨registers, index, same⟩ := m.loadRegisters_frame d x
      rw [carryOut, same] at carried
      cases carried
      exact .untouched rfl rfl rfl
  | awaitKey x =>
      rcases m.awaitKey_frame x with ⟨registers, looked⟩ | ⟨held, looked⟩
      all_goals
        rw [carryOut, looked] at carried
        cases carried
        exact .untouched rfl rfl rfl
  | _ =>
      cases carried
      exact .untouched rfl rfl rfl

end Machine

namespace Interpreter

variable {c c' : Interpreter} {outcome : Outcome}

/-- Every execution keeps to the frame of its outcome. -/
theorem deviceFrame_of_execute (ran : c.execute = (outcome, c')) :
    c.machine.DeviceFrame outcome.draws outcome.timerSource? c'.machine := by
  cases executes_of_execute ran with
  | unknown | refused => exact .untouched rfl rfl rfl
  | @carried i flow m decoded carried =>
      have frame := Machine.deviceFrame_of_carryOut carried
      cases flow with
      | stay =>
          obtain ⟨x, rfl⟩ := Machine.awaitKey_of_stay carried
          exact ⟨frame.screen, frame.pending, frame.timer⟩
      | next | skip | jump => exact ⟨frame.screen, frame.pending, frame.timer⟩

end Interpreter

end ChipEight
