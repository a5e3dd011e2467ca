/-
Module: ChipEight.Proofs.Cycles
Purpose: A paced run, cycle after cycle. A run of many cycles is a run of some of them and then of the
  others, so that every cycle finds what the cycles before it left; it lets the due ticks pass and
  carries out one step. The ticks that are due add up without loss, and words of 64 bits count them
  as long as the products stay in range.
Main exports: Pacing.ticksBefore_succ, Pacing.wordTicksDue, Pacing.toNat_wordTicksDue,
  Playback.play_add, Playback.atCycle, Playback.ready, Playback.interpreter_atCycle_succ,
  Playback.ready_succ_frame, Playback.frames_atCycle_succ, CommandLine.Options.play_eq_atCycle
-/
import ChipEight.CommandLine.Program
import ChipEight.Proofs.Session

namespace ChipEight

/-! ### Ticks that are due -/

namespace Pacing

theorem ticksBefore_mono (rate : Nat) {k l : Nat} (le : k ≤ l) :
    ticksBefore rate k ≤ ticksBefore rate l :=
  Nat.div_le_div_right (Nat.mul_le_mul_right _ le)

/-- No tick is lost between cycles. -/
theorem ticksBefore_succ (rate k : Nat) :
    ticksBefore rate (k + 1) = ticksBefore rate k + ticksDue rate k := by
  have grows := ticksBefore_mono rate (Nat.le_succ k)
  exact (Nat.add_sub_cancel' grows).symm

/-- The ticks that are due before instruction `k`, in words of 64 bits, which wrap. -/
def wordTicksDue (rate : UInt32) (k : UInt64) : UInt64 :=
  (k + 1) * 60 / rate.toUInt64 - k * 60 / rate.toUInt64

theorem toNat_ofNat_mul_sixty {n : Nat} (room : 60 * n < UInt64.size) :
    (UInt64.ofNat n * 60).toNat = n * 60 := by
  have small : n < UInt64.size := by omega
  rw [UInt64.toNat_mul, UInt64.toNat_ofNat_of_lt' small]
  apply Nat.mod_eq_of_lt
  change n * 60 < UInt64.size
  omega

/-- Nothing wraps as long as sixty times the number of the next instruction is a word. -/
theorem toNat_wordTicksDue (rate : UInt32) {k : Nat} (room : 60 * (k + 1) < UInt64.size) :
    (wordTicksDue rate (UInt64.ofNat k)).toNat = ticksDue rate.toNat k := by
  have next : UInt64.ofNat k + 1 = UInt64.ofNat (k + 1) := (UInt64.ofNat_add k 1).symm
  have product := toNat_ofNat_mul_sixty (n := k) (by omega)
  have nextProduct := toNat_ofNat_mul_sixty room
  have ordered : UInt64.ofNat k * 60 / rate.toUInt64 ≤
      UInt64.ofNat (k + 1) * 60 / rate.toUInt64 := by
    rw [UInt64.le_iff_toNat_le, UInt64.toNat_div, UInt64.toNat_div, product, nextProduct]
    exact ticksBefore_mono _ (Nat.le_succ k)
  rw [wordTicksDue, next, UInt64.toNat_sub_of_le _ _ ordered, UInt64.toNat_div, UInt64.toNat_div,
    product, nextProduct, UInt32.toNat_toUInt64]
  rfl

end Pacing

/-! ### Cycles of a run -/

/-- Ticks change the timers at most. -/
theorem Interpreter.ticks_frame (c : Interpreter) (n : Nat) :
    ∃ delayTimer soundTimer, c.ticks n = { c with machine := { c.machine with
      delayTimer, soundTimer } } := by
  induction n generalizing c with
  | zero => exact ⟨_, _, rfl⟩
  | succ n inductionHypothesis =>
      obtain ⟨delayTimer, soundTimer, ticked⟩ := inductionHypothesis c.tick
      rw [ticks, ticked]
      exact ⟨_, _, rfl⟩

namespace Playback

/-- A run goes on where its first cycles left it. -/
theorem play_add (rate k : Nat) (p : Playback) (m n : Nat) :
    p.play rate k (m + n) = (p.play rate k m).play rate (k + m) n := by
  induction m generalizing k p with
  | zero => simp [play]
  | succ m inductionHypothesis =>
      rw [Nat.succ_add, play, inductionHypothesis, play, Nat.succ_add_eq_add_succ]

/-- What cycle number `k` of a run finds, if the run begins with cycle number zero. -/
def atCycle (rate : Nat) (p : Playback) (k : Nat) : Playback := p.play rate 0 k

/-- The interpreter that cycle number `k` carries out a step of, after the ticks that are due. -/
def ready (rate : Nat) (p : Playback) (k : Nat) : Interpreter :=
  (p.atCycle rate k).interpreter.ticks (Pacing.ticksDue rate k)

/-- A cycle leaves what its step left, but for the frame that it takes. -/
theorem interpreter_atCycle_succ (rate : Nat) (p : Playback) (k : Nat) :
    (p.atCycle rate (k + 1)).interpreter =
      ((p.ready rate k).step.2.respond (.machine (.screen .takePending))).2 := by
  rw [atCycle, play_add, Nat.zero_add]
  rfl

/-- What stands between the steps of two cycles in a row: the frame is taken and the timers tick. -/
theorem ready_succ_frame (rate : Nat) (p : Playback) (k : Nat) :
    ∃ delayTimer soundTimer, p.ready rate (k + 1) =
      { (p.ready rate k).step.2 with machine := { (p.ready rate k).step.2.machine with
        delayTimer, soundTimer
        screen := { (p.ready rate k).step.2.machine.screen with pending := false } } } := by
  rw [ready, interpreter_atCycle_succ]
  exact Interpreter.ticks_frame _ _

/-- A frame is counted if one waits behind the step. -/
theorem frames_atCycle_succ (rate : Nat) (p : Playback) (k : Nat) :
    (p.atCycle rate (k + 1)).frames =
      if (p.ready rate k).step.2.machine.screen.pending then (p.atCycle rate k).frames + 1
      else (p.atCycle rate k).frames := by
  rw [atCycle, play_add, Nat.zero_add]
  rfl

end Playback

namespace CommandLine

/-- A whole run goes through the cycles one after the other. -/
theorem Options.play_eq_atCycle (o : Options) (c : Interpreter) :
    o.play c = (o.begun c).atCycle o.ips.toNat o.cycles.toNat := rfl

end CommandLine

end ChipEight
