/-
Module: ChipEight.Proofs.EndlessWait
Purpose: In a paced run a wait for a key never ends. The keys that are held are down from before the
  first cycle, and no key goes up or down later, so every look of a wait sees the same keypad and no
  key is ever fresh. The cycle that comes to a wait therefore stays there, and so do all cycles
  behind it: but for the timers, which go on counting down, the machine stands still.
Main exports: Machine.Steady, Interpreter.AtWait, Interpreter.Stands,
  Interpreter.keepWaiting_of_steady, Playback.steady_ready, Playback.waiting_of_le,
  Playback.WaitsFrom, CommandLine.waits_never_end
-/
import ChipEight.Proofs.Countdown
import ChipEight.Proofs.KeyWait

namespace ChipEight

/-- No key counts as long as every look saw the keypad as it is now. -/
theorem Keypad.not_counts_replicate (n : Nat) (now : Keypad) (key : Nibble) :
    ¬ Counts (List.replicate n now) now key := by
  rintro ⟨down, look, looked, up⟩
  rw [List.eq_of_mem_replicate looked, down] at up
  cases up

/-- Every look that the machine remembers saw the keypad as it is now. -/
def Machine.Steady (m : Machine) : Prop :=
  ∃ n, Remembers (List.replicate n m.keypad) m.keysHeld?

namespace Interpreter

variable {c c' c'' : Interpreter} {outcome : Outcome}

/-- The word at the program counter is a wait for a key. -/
def AtWait (c : Interpreter) : Prop :=
  ∃ x, Instruction.decode (c.machine.memory.readWord c.machine.pc) = some (.awaitKey x)

/-- The second interpreter is the first one some time into a wait. What can have changed is the word
    that was fetched last, what is remembered of the keys, the timers, and whether a frame waits;
    everything else is the same. -/
def Stands (c c' : Interpreter) : Prop :=
  ∃ opcode keysHeld? delayTimer soundTimer pending,
    c' = { c with machine := { c.machine with
      opcode, keysHeld?, delayTimer, soundTimer, screen := { c.machine.screen with pending } } }

namespace Stands

theorem refl (c : Interpreter) : c.Stands c := ⟨_, _, _, _, _, rfl⟩

theorem trans (first : c.Stands c') (second : c'.Stands c'') : c.Stands c'' := by
  obtain ⟨_, _, _, _, _, rfl⟩ := first
  obtain ⟨_, _, _, _, _, rfl⟩ := second
  exact ⟨_, _, _, _, _, rfl⟩

/-- Standing still, the program is where it was. -/
theorem atWait (stands : c.Stands c') (waits : c.AtWait) : c'.AtWait := by
  obtain ⟨_, _, _, _, _, rfl⟩ := stands
  exact waits

end Stands

/-! ### Steps -/

/-- Nothing that a program does presses a key. -/
theorem keypad_of_execute (ran : c.execute = (outcome, c')) :
    c'.machine.keypad = c.machine.keypad := by
  cases executes_of_execute ran with
  | unknown | refused => rfl
  | carried decoded carried => exact (Machine.frame_of_carryOut carried).keypad

/-- Only a wait for a key looks at the keypad: a step that waits or takes a key has come to one. -/
theorem atWait_of_step
    (looked : c.step.1 = .waiting ∨ ∃ x, c.step.1 = .executed (.awaitKey x)) : c.AtWait := by
  by_contra elsewhere
  obtain ⟨-, unwaiting, untaken⟩ := keysHeld?_of_execute (c := c.fetch) rfl
    fun x due => elsewhere ⟨x, due⟩
  rcases looked with waiting | ⟨x, taken⟩
  · exact unwaiting waiting
  · exact untaken x taken

/-- At a wait a steady interpreter waits, and remembers one look more at the same keypad. -/
theorem keepWaiting_of_steady (steady : c.machine.Steady) (waits : c.AtWait) :
    ∃ held, c.step = (.waiting, c.fetch.keepWaiting held) ∧
      (c.fetch.keepWaiting held).machine.Steady := by
  obtain ⟨n, remembers⟩ := steady
  obtain ⟨x, due⟩ := waits
  rcases step_awaitKey due remembers with ⟨key, counted, -⟩ | ⟨-, held, remembered, stepped⟩
  · exact absurd counted (Keypad.not_counts_replicate n _ key)
  · rw [← List.replicate_succ'] at remembered
    exact ⟨held, stepped, n + 1, remembered⟩

/-- No step makes a steady interpreter unsteady. -/
theorem steady_step (steady : c.machine.Steady) : c.step.2.machine.Steady := by
  by_cases waits : c.AtWait
  case pos =>
    obtain ⟨held, stepped, steadyAfter⟩ := keepWaiting_of_steady steady waits
    rw [stepped]
    exact steadyAfter
  case neg =>
    obtain ⟨n, remembers⟩ := steady
    have same : c.step.2.machine.keysHeld? = c.machine.keysHeld? :=
      (keysHeld?_of_execute (c := c.fetch) rfl fun x due => waits ⟨x, due⟩).1
    have keypad : c.step.2.machine.keypad = c.machine.keypad :=
      keypad_of_execute (c := c.fetch) rfl
    refine ⟨n, ?_⟩
    rw [same, keypad]
    exact remembers

/-- A steady interpreter takes no key. -/
theorem not_takes_of_steady (steady : c.machine.Steady) (x : Nibble) :
    c.step.1 ≠ .executed (.awaitKey x) := by
  intro taken
  obtain ⟨held, stepped, -⟩ := keepWaiting_of_steady steady (atWait_of_step (.inr ⟨x, taken⟩))
  rw [stepped] at taken
  cases taken

end Interpreter

/-! ### Cycles -/

namespace Playback

open Interpreter (Stands atWait_of_step)

variable {rate k j n : Nat} {p : Playback}

/-- A cycle leaves a timer as its step left it. -/
theorem value_atCycle_succ (rate : Nat) (p : Playback) (k : Nat) (timer : Timer) :
    timer.value (p.atCycle rate (k + 1)).interpreter.machine =
      timer.value (p.ready rate k).step.2.machine := by
  rw [interpreter_atCycle_succ]
  cases timer <;> rfl

/-- A run that begins steady is steady at every step. -/
theorem steady_ready (steady : p.interpreter.machine.Steady) (k : Nat) :
    (p.ready rate k).machine.Steady := by
  induction k with
  | zero =>
      obtain ⟨delayTimer, soundTimer, ticked⟩ :=
        p.interpreter.ticks_frame (Pacing.ticksDue rate 0)
      have begun : p.ready rate 0 = _ := ticked
      rw [begun]
      exact steady
  | succ k inductionHypothesis =>
      obtain ⟨delayTimer, soundTimer, between⟩ := p.ready_succ_frame rate k
      rw [between]
      exact Interpreter.steady_step inductionHypothesis

/-- A cycle that waits leaves the machine where it stands. -/
theorem stands_of_waiting (steady : p.interpreter.machine.Steady)
    (waiting : (p.ready rate k).step.1 = .waiting) :
    Stands (p.ready rate k) (p.ready rate k).step.2 ∧
      (p.ready rate k).step.2.machine.screen = (p.ready rate k).machine.screen := by
  obtain ⟨held, stepped, -⟩ :=
    Interpreter.keepWaiting_of_steady (steady_ready steady k) (atWait_of_step (.inl waiting))
  rw [stepped]
  exact ⟨⟨_, _, _, _, _, rfl⟩, rfl⟩

/-- All cycles from one that waits on find the machine where it stood then, and wait as well. -/
theorem waiting_of_le (steady : p.interpreter.machine.Steady)
    (waiting : (p.ready rate j).step.1 = .waiting) (later : j ≤ k) :
    Stands (p.ready rate j) (p.ready rate k) ∧ (p.ready rate k).step.1 = .waiting := by
  induction k, later using Nat.le_induction with
  | base => exact ⟨.refl _, waiting⟩
  | succ k later inductionHypothesis =>
      -- The next cycle waits because the machine stands: program counter and memory are the same.
      obtain ⟨stood, waitingBefore⟩ := inductionHypothesis
      obtain ⟨stays, -⟩ := stands_of_waiting steady waitingBefore
      obtain ⟨delayTimer, soundTimer, between⟩ := p.ready_succ_frame rate k
      have stands : Stands (p.ready rate j) (p.ready rate (k + 1)) := by
        rw [between]
        exact (stood.trans stays).trans ⟨_, _, _, _, _, rfl⟩
      have waits : (p.ready rate (k + 1)).AtWait := stands.atWait (atWait_of_step (.inl waiting))
      obtain ⟨held, stepped, -⟩ :=
        Interpreter.keepWaiting_of_steady (steady_ready steady (k + 1)) waits
      rw [stepped]
      exact ⟨stands, rfl⟩

/-- A cycle that waits and is not the first one takes no frame: the one before it took it. -/
theorem frames_of_waiting (steady : p.interpreter.machine.Steady)
    (waiting : (p.ready rate (k + 1)).step.1 = .waiting) :
    (p.atCycle rate (k + 2)).frames = (p.atCycle rate (k + 1)).frames := by
  obtain ⟨delayTimer, soundTimer, between⟩ := p.ready_succ_frame rate k
  have taken : (p.ready rate (k + 1)).step.2.machine.screen.pending = false := by
    rw [(stands_of_waiting steady waiting).2, between]
  rw [frames_atCycle_succ, taken]
  rfl

/-- Behind a cycle that waits no frame is taken. -/
theorem frames_of_le (steady : p.interpreter.machine.Steady)
    (waiting : (p.ready rate j).step.1 = .waiting) (later : j ≤ k) :
    (p.atCycle rate (k + 1)).frames = (p.atCycle rate (j + 1)).frames := by
  induction k, later using Nat.le_induction with
  | base => rfl
  | succ k later inductionHypothesis =>
      have waitingNext := (waiting_of_le steady waiting (Nat.le_succ_of_le later)).2
      rw [frames_of_waiting steady waitingNext, inductionHypothesis]

/-- A wait changes no timer. -/
theorem value_step_of_waiting (waiting : (p.ready rate k).step.1 = .waiting) (timer : Timer) :
    timer.value (p.ready rate k).step.2.machine = timer.value (p.ready rate k).machine := by
  rw [Interpreter.value_step, waiting]
  rfl

/-- While cycles wait, a timer loses the ticks that fall due. -/
theorem toNat_value_of_waiting {k : Nat} (later : j ≤ k)
    (waiting : ∀ i, j ≤ i → i ≤ k → (p.ready rate i).step.1 = .waiting) (timer : Timer) :
    (timer.value (p.ready rate k).step.2.machine).toNat =
      (timer.value (p.ready rate j).machine).toNat -
        (60 * (k + 1) / rate - 60 * (j + 1) / rate) := by
  rw [value_step_of_waiting (waiting k later (Nat.le_refl k))]
  rcases Nat.eq_or_lt_of_le later with rfl | later
  · rw [Nat.sub_self, Nat.sub_zero]
  · have alone : ∀ i, j < i → i < k → (p.ready rate i).step.1.timerSource? timer = none := by
      intro i after before
      rw [waiting i (Nat.le_of_lt after) (Nat.le_of_lt before)]
      rfl
    rw [toNat_value_ready later alone,
      value_step_of_waiting (waiting j (Nat.le_refl j) (Nat.le_of_lt later)), Nat.mul_comm 60,
      Nat.mul_comm 60]
    rfl

/-- From cycle `j` on the first `n` cycles of a run do nothing but wait. Nothing has changed since
    the step of that cycle but the timers and what belongs to the wait; no frame was taken after
    that cycle; and each timer has lost the ticks that fell due, as far as it had any to lose. -/
structure WaitsFrom (rate : Nat) (p : Playback) (j n : Nat) : Prop where
  waiting : ∀ k, j ≤ k → k < n → (p.ready rate k).step.1 = .waiting
  stands : Stands (p.ready rate j) (p.atCycle rate n).interpreter
  frames : (p.atCycle rate n).frames = (p.atCycle rate (j + 1)).frames
  timer : ∀ timer : Timer,
    (timer.value (p.atCycle rate n).interpreter.machine).toNat =
      (timer.value (p.ready rate j).machine).toNat - (60 * n / rate - 60 * (j + 1) / rate)

/-- A cycle of a steady run that waits is followed by waits alone. -/
theorem waitsFrom_of_waiting (steady : p.interpreter.machine.Steady)
    (waiting : (p.ready rate j).step.1 = .waiting) (later : j < n) : p.WaitsFrom rate j n := by
  have waitingAll : ∀ k, j ≤ k → (p.ready rate k).step.1 = .waiting :=
    fun k later => (waiting_of_le steady waiting later).2
  obtain ⟨k, rfl⟩ : ∃ k, n = k + 1 := Nat.exists_eq_succ_of_ne_zero (Nat.ne_zero_of_lt later)
  have last : j ≤ k := Nat.le_of_lt_succ later
  constructor
  case waiting => exact fun i after _ => waitingAll i after
  case stands =>
    obtain ⟨stood, waitingLast⟩ := waiting_of_le steady waiting last
    rw [interpreter_atCycle_succ]
    exact (stood.trans (stands_of_waiting steady waitingLast).1).trans ⟨_, _, _, _, _, rfl⟩
  case frames => exact frames_of_le steady waiting last
  case timer =>
    intro timer
    rw [value_atCycle_succ]
    exact toNat_value_of_waiting last (fun i after _ => waitingAll i after) timer

end Playback

namespace CommandLine

variable {o : Options} {image : List UInt8} {font? : Option (List UInt8)} {entropy : Cipher.Key}
  {c : Interpreter}

/-- A run begins steady: nothing is remembered of any wait, whichever keys are held. -/
theorem steady_begun (built : c.Built) (o : Options) :
    (o.begun c).interpreter.machine.Steady := by
  obtain ⟨memory, font, initial⟩ := built.machine_eq
  refine ⟨0, ?_⟩
  rw [Options.begun, holdKeys, initial]
  rfl

/-- In a run from the command line a wait for a key never ends. Whatever the program, the font, the
    dialect, the seed, the rate, the number of cycles and the keys that are held, no cycle completes
    a wait for a key. Once a cycle waits, all later cycles wait, and at the end of every later one,
    so at the end of the run, the machine stands where it stood at that cycle: there was no further
    fault and no further frame, and only the timers went on towards zero with the ticks that fell
    due, which the words of 64 bits that count them get right. -/
theorem waits_never_end (built : (o.setup image font?).build entropy = .ok c)
    (room : 60 * o.cycles.toNat < UInt64.size) :
    o.play c = (o.begun c).atCycle o.ips.toNat o.cycles.toNat ∧
    (∀ k < o.cycles.toNat, ∀ x,
      ((o.begun c).ready o.ips.toNat k).step.1 ≠ .executed (.awaitKey x)) ∧
    (∀ j < o.cycles.toNat, ((o.begun c).ready o.ips.toNat j).step.1 = .waiting →
      ∀ n, j < n → n ≤ o.cycles.toNat → (o.begun c).WaitsFrom o.ips.toNat j n) ∧
    ∀ k < o.cycles.toNat,
      (Pacing.wordTicksDue o.ips (UInt64.ofNat k)).toNat = Pacing.ticksDue o.ips.toNat k := by
  have steady := steady_begun ⟨_, _, built⟩ o
  refine ⟨o.play_eq_atCycle c, ?_, ?_, ?_⟩
  · intro k _ x
    exact Interpreter.not_takes_of_steady (Playback.steady_ready steady k) x
  · intro j _ waiting n later _
    exact Playback.waitsFrom_of_waiting steady waiting later
  · intro k within
    exact Pacing.toNat_wordTicksDue o.ips (by omega)

/-- A program that sets the delay timer to nine and then waits for a key. -/
def nineThenWait : List UInt8 := [0x60, 0x09, 0xF0, 0x15, 0xF1, 0x0A]

/-- Five cycles with a key held, two ticks before each. -/
def holdingThree : Options :=
  { rom := "wait.ch8", ips := 30, cycles := 5, hold := [lowNibble 3], seed? := some 0 }

/-- The held key does not end the wait that the third cycle comes to. At the end of the run the
    delay timer stands at three, and the program waits still. -/
theorem waits_never_end_holdingThree :
    (∀ x, ((holdingThree.begun (Interpreter.ofProgram nineThenWait)).ready 30 4).step.1 ≠
      .executed (.awaitKey x)) ∧
    (holdingThree.begun (Interpreter.ofProgram nineThenWait)).WaitsFrom 30 2 5 ∧
    (Timer.delay.value
      (holdingThree.play (Interpreter.ofProgram nineThenWait)).interpreter.machine).toNat = 3 := by
  obtain ⟨waiting, seven⟩ :
      ((holdingThree.begun (Interpreter.ofProgram nineThenWait)).ready 30 2).step.1 = .waiting ∧
      Timer.delay.value
        ((holdingThree.begun (Interpreter.ofProgram nineThenWait)).ready 30 2).machine = 7 := by
    decide +kernel
  obtain ⟨played, untaken, waits, -⟩ := waits_never_end (o := holdingThree)
    (Interpreter.build_ofProgram nineThenWait (Vector.replicate 8 0) (by decide)) (by decide)
  have standing : (holdingThree.begun (Interpreter.ofProgram nineThenWait)).WaitsFrom 30 2 5 :=
    waits 2 (by decide) waiting 5 (by decide) (by decide)
  have left := standing.timer .delay
  rw [seven] at left
  have rate : holdingThree.ips.toNat = 30 := rfl
  have whole : holdingThree.cycles.toNat = 5 := rfl
  refine ⟨untaken 4 (by decide), standing, ?_⟩
  rw [played, rate, whole, left]
  rfl

end CommandLine

end ChipEight
