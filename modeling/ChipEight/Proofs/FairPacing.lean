/-
Module: ChipEight.Proofs.FairPacing
Purpose: Timer ticks are spread evenly over the cycles of a run. The ticks of any window of cycles add
  up to a difference of two quotients, so that it does not matter by more than one tick where a window
  begins, and a window of whole seconds gets sixty ticks a second. At sixty cycles a second or more, a
  cycle gets one tick at most, and the distance from one tick to the next is as even as whole cycles
  allow; at a lower rate every cycle gets the even share, rounded down or up.
Main exports: IsRounded, IsRounded.of_bounds, Pacing.sum_ticksDue, Pacing.isRounded_sum_ticksDue,
  Pacing.ticksDue_le_one, Pacing.isRounded_gap, Pacing.ticks_are_spread_evenly
-/
import ChipEight.Proofs.Cycles
import Mathlib.Algebra.BigOperators.Intervals
import Mathlib.Algebra.Order.Floor.Div
import Mathlib.Tactic.Ring

namespace ChipEight

/-- The number is the quotient of two others, rounded down or up. -/
def IsRounded (n dividend divisor : Nat) : Prop :=
  n = dividend / divisor ∨ n = dividend ⌈/⌉ divisor

instance (n dividend divisor : Nat) : Decidable (IsRounded n dividend divisor) :=
  inferInstanceAs (Decidable (_ ∨ _))

/-- A product that differs from the dividend by less than the divisor has a rounded quotient for its
    factor. -/
theorem IsRounded.of_bounds {n dividend divisor : Nat}
    (above : n * divisor < dividend + divisor) (below : dividend < n * divisor + divisor) :
    IsRounded n dividend divisor := by
  have next : (n + 1) * divisor = n * divisor + divisor := Nat.succ_mul n divisor
  rcases Nat.le_total (n * divisor) dividend with down | up
  · left
    exact (Nat.div_eq_of_lt_le down (by omega)).symm
  · right
    rw [Nat.ceilDiv_eq_add_pred_div]
    exact (Nat.div_eq_of_lt_le (by omega) (by omega)).symm

namespace Pacing

variable {rate : Nat}

/-! ### Windows of cycles -/

/-- Up to a cycle as many ticks were due as fit into its time: one more would not have. -/
theorem ticksBefore_bounds (positive : 0 < rate) (k : Nat) :
    ticksBefore rate k * rate ≤ 60 * k ∧ 60 * k < ticksBefore rate k * rate + rate := by
  have split := Nat.div_add_mod' (k * ticksPerSecond) rate
  have rest := Nat.mod_lt (k * ticksPerSecond) positive
  change ticksBefore rate k * rate + _ = k * 60 at split
  omega

/-- The ticks of a window add up to what is due between its ends. -/
theorem sum_ticksDue (rate a n : Nat) :
    ticksBefore rate a + ∑ c ∈ Finset.Ico a (a + n), ticksDue rate c = ticksBefore rate (a + n) := by
  induction n with
  | zero => simp
  | succ n inductionHypothesis =>
      rw [← Nat.add_assoc a n 1, Finset.sum_Ico_succ_top (Nat.le_add_right a n), ← Nat.add_assoc,
        inductionHypothesis, ticksBefore_succ]

/-- A window gets its even share, wherever it begins. -/
theorem isRounded_sum_ticksDue (positive : 0 < rate) (a n : Nat) :
    IsRounded (∑ c ∈ Finset.Ico a (a + n), ticksDue rate c) (60 * n) rate := by
  have ends := congrArg (· * rate) (sum_ticksDue rate a n)
  have first := ticksBefore_bounds positive a
  have last := ticksBefore_bounds positive (a + n)
  simp only [Nat.add_mul] at ends
  exact .of_bounds (by omega) (by omega)

/-- In whole seconds sixty ticks a second are due. -/
theorem sum_ticksDue_seconds (positive : 0 < rate) (a m : Nat) :
    ∑ c ∈ Finset.Ico a (a + m * rate), ticksDue rate c = 60 * m := by
  have later : ticksBefore rate (a + m * rate) = ticksBefore rate a + 60 * m := by
    have product : (a + m * rate) * ticksPerSecond = a * ticksPerSecond + rate * (60 * m) := by
      rw [ticksPerSecond]
      ring
    rw [ticksBefore, product, Nat.add_mul_div_left _ _ positive, ticksBefore]
  have ends := sum_ticksDue rate a (m * rate)
  omega

/-! ### Single cycles -/

/-- A single cycle is a window as well. -/
theorem isRounded_ticksDue (positive : 0 < rate) (c : Nat) : IsRounded (ticksDue rate c) 60 rate := by
  have alone := isRounded_sum_ticksDue positive c 1
  rw [Nat.Ico_succ_singleton, Finset.sum_singleton] at alone
  exact alone

theorem ticksDue_le_one (fast : 60 ≤ rate) (c : Nat) : ticksDue rate c ≤ 1 := by
  have product : (c + 1) * ticksPerSecond ≤ c * ticksPerSecond + rate := by
    rw [Nat.succ_mul]
    exact Nat.add_le_add_left fast _
  have next : ticksBefore rate (c + 1) ≤ ticksBefore rate c + 1 := by
    rw [ticksBefore, ticksBefore, ← Nat.add_div_right _ (Nat.lt_of_lt_of_le (by decide) fast)]
    exact Nat.div_le_div_right product
  rw [ticksDue]
  omega

/-- The cycle before which a tick is due is the first one behind the time of the tick. -/
theorem bounds_of_due (fast : 60 ≤ rate) {c : Nat} (due : ticksDue rate c ≠ 0) :
    ticksBefore rate (c + 1) = ticksBefore rate c + 1 ∧
      60 * (c + 1) < ticksBefore rate (c + 1) * rate + 60 := by
  have one : ticksDue rate c = 1 := by
    have atMost := ticksDue_le_one fast c
    omega
  have next := ticksBefore_succ rate c
  rw [one] at next
  have before := ticksBefore_bounds (Nat.lt_of_lt_of_le (by decide) fast) c
  refine ⟨next, ?_⟩
  rw [next, Nat.add_mul]
  omega

/-- From one tick to the next it is a sixtieth of a second, rounded down or up to whole cycles. -/
theorem isRounded_gap (fast : 60 ≤ rate) {c d : Nat} (order : c < d) (first : ticksDue rate c ≠ 0)
    (second : ticksDue rate d ≠ 0) (idle : ∀ e, c < e → e < d → ticksDue rate e = 0) :
    IsRounded (d - c) rate 60 := by
  -- Nothing is due between the two, so that the two ticks are numbered one after the other.
  have consecutive : ticksBefore rate d = ticksBefore rate (c + 1) := by
    have window := sum_ticksDue rate (c + 1) (d - (c + 1))
    rw [Nat.add_sub_cancel' order, Finset.sum_eq_zero] at window
    · exact window.symm
    · intro e inside
      obtain ⟨above, below⟩ := Finset.mem_Ico.mp inside
      exact idle e above below
  have positive : 0 < rate := Nat.lt_of_lt_of_le (by decide) fast
  obtain ⟨-, upToFirst⟩ := bounds_of_due fast first
  obtain ⟨numbered, upToSecond⟩ := bounds_of_due fast second
  have fromFirst := (ticksBefore_bounds positive (c + 1)).1
  have fromSecond := (ticksBefore_bounds positive (d + 1)).1
  rw [numbered, consecutive, Nat.add_mul] at fromSecond upToSecond
  exact .of_bounds (by omega) (by omega)

/-- Timer ticks are spread evenly, at every rate but zero. The ticks of the `n` cycles from `a` on add up
    to a difference of two quotients, which is the even share, rounded down or up, and exact for whole
    seconds. At sixty cycles a second or more every cycle gets no tick or one, and from one tick to
    the next it is a sixtieth of a second, rounded down or up to whole cycles; at a lower rate every
    cycle gets the even share, rounded down or up. Words of 64 bits count the same ticks as long as
    sixty times the number of the next cycle is a word. -/
theorem ticks_are_spread_evenly (rate : UInt32) (positive : 1 ≤ rate.toNat) :
    (∀ c, ticksDue? rate.toNat c = .ok (ticksDue rate.toNat c) ∧
      (60 * (c + 1) < UInt64.size →
        (wordTicksDue rate (UInt64.ofNat c)).toNat = ticksDue rate.toNat c)) ∧
    (∀ a n,
      ∑ c ∈ Finset.Ico a (a + n), ticksDue rate.toNat c =
        60 * (a + n) / rate.toNat - 60 * a / rate.toNat ∧
      IsRounded (∑ c ∈ Finset.Ico a (a + n), ticksDue rate.toNat c) (60 * n) rate.toNat ∧
      ∀ m, n = m * rate.toNat →
        ∑ c ∈ Finset.Ico a (a + n), ticksDue rate.toNat c = 60 * m) ∧
    (60 ≤ rate.toNat →
      (∀ c, ticksDue rate.toNat c = 0 ∨ ticksDue rate.toNat c = 1) ∧
      ∀ c d, c < d → ticksDue rate.toNat c ≠ 0 → ticksDue rate.toNat d ≠ 0 →
        (∀ e, c < e → e < d → ticksDue rate.toNat e = 0) → IsRounded (d - c) rate.toNat 60) ∧
    (rate.toNat < 60 → ∀ c, IsRounded (ticksDue rate.toNat c) 60 rate.toNat) := by
  refine ⟨fun c => ⟨if_neg (Nat.ne_of_gt positive), toNat_wordTicksDue rate⟩, fun a n => ?_,
    fun fast => ⟨fun c => ?_, fun c d => isRounded_gap fast⟩, fun _ => isRounded_ticksDue positive⟩
  · refine ⟨?_, isRounded_sum_ticksDue positive a n, ?_⟩
    · have ends := sum_ticksDue rate.toNat a n
      rw [Nat.mul_comm 60, Nat.mul_comm 60]
      exact Nat.eq_sub_of_add_eq' ends
    · rintro m rfl
      exact sum_ticksDue_seconds positive a m
  · exact Nat.le_one_iff_eq_zero_or_eq_one.mp (ticksDue_le_one fast c)

/-- At 700 cycles a second ticks are due in cycles 11 and 23 and in none between them, twelve cycles
    apart; at 25 a second a cycle gets two ticks or three, and fifty cycles from number three on get
    120. -/
theorem ticks_are_spread_evenly_uneven :
    1 ≤ (700 : UInt32).toNat ∧ IsRounded (23 - 11) 700 60 ∧
      IsRounded (ticksDue 25 4) 60 25 ∧
      ∑ c ∈ Finset.Ico 3 (3 + 50), ticksDue 25 c = 60 * 2 := by
  obtain ⟨-, -, fast, -⟩ := ticks_are_spread_evenly 700 (by decide)
  obtain ⟨-, windows, -, slow⟩ := ticks_are_spread_evenly 25 (by decide)
  have idle : ∀ e < 23, 11 < e → ticksDue 700 e = 0 := by decide
  have gap := (fast (by decide)).2 11 23 (by decide) (by decide) (by decide)
    fun e above below => idle e below above
  exact ⟨by decide, gap, slow (by decide) 4, (windows 3 50).2.2 2 rfl⟩

end Pacing

end ChipEight
