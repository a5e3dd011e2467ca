/-
Module: ChipEight.Pacing
Purpose: Timer ticks in step with instructions. At a rate of `rate` instructions a second, sixty
  ticks fall due in the time of `rate` instructions; before instruction `k` runs, the ticks of that
  instruction's share of time are due, rounded down over the whole run so that nothing is lost.
Main exports: Pacing.ticksBefore, Pacing.ticksDue, Pacing.ticksDue?, Pacing.duration, PacingError
-/

namespace ChipEight

/-- Why no pace can be kept. -/
inductive PacingError where
  /-- No instruction a second is no pace. -/
  | zeroRate
deriving DecidableEq, Repr

/-- The wording of the error. -/
def PacingError.message : PacingError → String
  | .zeroRate => "attempt to divide by zero"

namespace Pacing

/-- How often the timers tick in a second. -/
def ticksPerSecond : Nat := 60

/-- How many ticks fall into the time of the first `k` instructions. -/
def ticksBefore (rate k : Nat) : Nat := k * ticksPerSecond / rate

/-- How many ticks are due before instruction `k` runs. -/
def ticksDue (rate k : Nat) : Nat := ticksBefore rate (k + 1) - ticksBefore rate k

/-- How many ticks are due before instruction `k` runs, if there is a pace. -/
def ticksDue? (rate k : Nat) : Except PacingError Nat :=
  if rate = 0 then .error .zeroRate else .ok (ticksDue rate k)

/-- How long `n` instructions take, in nanoseconds from the first to the last. -/
def duration (rate n : Nat) : Nat := (n - 1) * (1000000000 / rate)

end Pacing

end ChipEight
