/-
Module: ChipEight.Proofs.KeyWait
Purpose: Waiting for a key, as a protocol over looks at the keypad. A machine that waits remembers
  the keys that were down at every look so far; read against the whole list of looks, a key counts
  once it is down and was up at some earlier look. A wait goes on until the first look at which a
  key counts, whatever the host does in between, and ends there with the least such key.
Main exports: Keypad.Counts, Remembers, Machine.awaitKey_of_remembers, Interpreter.attended,
  Interpreter.wait_ends_at_first_fresh_key
-/
import ChipEight.Proofs.Invariant

namespace ChipEight

open Interpreter (Operation)

namespace Keypad

/-- A key counts for a wait with these looks: it is down now, and was up at some look. -/
def Counts (looks : List Keypad) (now : Keypad) (key : Nibble) : Prop :=
  now.isDown key = true ∧ ∃ look ∈ looks, look.isDown key = false

instance (looks : List Keypad) (now : Keypad) (key : Nibble) : Decidable (Counts looks now key) :=
  inferInstanceAs (Decidable (_ ∧ _))

/-- The key that is found is the least that is down and not held. -/
theorem fresh?_eq_some {k held : Keypad} {key : Nibble} (found : k.fresh? held = some key) :
    (k.isDown key = true ∧ held.isDown key = false) ∧
      ∀ other, k.isDown other = true → held.isDown other = false → key ≤ other := by
  obtain ⟨this, i, bound, here, before⟩ := List.find?_eq_some_iff_getElem.mp found
  rw [List.getElem_finRange] at here
  subst here
  refine ⟨by simpa using this, ?_⟩
  intro other down up
  by_contra less
  -- A smaller key stands earlier in the list, where the search found nothing.
  have earlier : other.val < i := Fin.not_le.mp less
  have missed := before other.val earlier
  simp [down, up] at missed

theorem fresh?_eq_none {k held : Keypad} (found : k.fresh? held = none) (key : Nibble) :
    ¬ (k.isDown key = true ∧ held.isDown key = false) := by
  have missed := List.find?_eq_none.mp found key (List.mem_finRange key)
  simpa using missed

end Keypad

/-- What a machine remembers of the looks of a wait: nothing before the first one, and afterwards the
    keys that were down at all of them. -/
def Remembers (looks : List Keypad) : Option Keypad → Prop
  | none => looks = []
  | some held => looks ≠ [] ∧ ∀ key, held.isDown key = looks.all (·.isDown key)

namespace Machine

variable {m : Machine} {looks : List Keypad}

/-- A look with the memory of earlier looks: it takes the least key that counts, which ends the wait,
    or no key counts and the look is remembered with the others. -/
theorem awaitKey_of_remembers (remembers : Remembers looks m.keysHeld?) (x : Nibble) :
    (∃ key, Keypad.Counts looks m.keypad key ∧
      (∀ other, Keypad.Counts looks m.keypad other → key ≤ other) ∧
      m.awaitKey x = (.next, { m.setRegister x (UInt8.ofNat key) with keysHeld? := none })) ∨
    ((∀ key, ¬ Keypad.Counts looks m.keypad key) ∧
      ∃ held, Remembers (looks ++ [m.keypad]) (some held) ∧
        m.awaitKey x = (.stay, { m with keysHeld? := some held })) := by
  -- What was down at every look, this one included. At the first look that is all that is down now.
  have held : ∀ key, (m.keypad.meet (m.keysHeld?.getD m.keypad)).isDown key =
      (m.keypad.isDown key && looks.all (·.isDown key)) := by
    intro key
    rw [Keypad.isDown_meet]
    cases pending : m.keysHeld? with
    | none =>
        rw [pending] at remembers
        have first : looks = [] := remembers
        simp [first]
    | some held =>
        rw [pending] at remembers
        rw [Option.getD_some, remembers.2 key]
  have counts : ∀ key, Keypad.Counts looks m.keypad key ↔
      m.keypad.isDown key = true ∧
        (m.keypad.meet (m.keysHeld?.getD m.keypad)).isDown key = false := by
    intro key
    rw [held key, Keypad.Counts]
    refine and_congr_right fun down => ?_
    simp [down]
  cases found : m.keypad.fresh? (m.keypad.meet (m.keysHeld?.getD m.keypad)) with
  | some key =>
      obtain ⟨fresh, least⟩ := Keypad.fresh?_eq_some found
      refine .inl ⟨key, (counts key).mpr fresh, ?_, ?_⟩
      · intro other counted
        obtain ⟨down, up⟩ := (counts other).mp counted
        exact least other down up
      · simp only [awaitKey, found]
  | none =>
      have looked : m.awaitKey x = (.stay, { m with
          keysHeld? := some (m.keypad.meet (m.keysHeld?.getD m.keypad)) }) := by
        simp only [awaitKey, found]
      refine .inr ⟨?_, _, ⟨by simp, ?_⟩, looked⟩
      · intro key counted
        exact Keypad.fresh?_eq_none found key ((counts key).mp counted)
      · intro key
        rw [held key]
        simp [Bool.and_comm]

end Machine

namespace Interpreter

variable {c c' e : Interpreter} {outcome : Outcome} {operation : Operation} {looks : List Keypad}
  {x : Nibble}

/-- The step takes the key for the register and goes on behind the wait. -/
def takeKey (c : Interpreter) (x key : Nibble) : Interpreter :=
  { c with machine := { c.machine.setRegister x (UInt8.ofNat key) with
    keysHeld? := none
    pc := c.machine.pc + 2 } }

/-- The step remembers the keys that are held and stays at the wait. -/
def keepWaiting (c : Interpreter) (held : Keypad) : Interpreter :=
  { c with machine := { c.machine with keysHeld? := some held } }

/-- Carrying out a wait for a key takes the least key that counts, or waits if there is none. -/
theorem execute_awaitKey (decoded : Instruction.decode c.machine.opcode = some (.awaitKey x))
    (remembers : Remembers looks c.machine.keysHeld?) :
    (∃ key, Keypad.Counts looks c.machine.keypad key ∧
      (∀ other, Keypad.Counts looks c.machine.keypad other → key ≤ other) ∧
      c.execute = (.executed (.awaitKey x), c.takeKey x key)) ∨
    ((∀ key, ¬ Keypad.Counts looks c.machine.keypad key) ∧
      ∃ held, Remembers (looks ++ [c.machine.keypad]) (some held) ∧
        c.execute = (.waiting, c.keepWaiting held)) := by
  have ran : c.execute = ((c.machine.awaitKey x).1.outcome (.awaitKey x),
      { c with machine := { (c.machine.awaitKey x).2 with
        pc := (c.machine.awaitKey x).1.target c.machine.pc } }) := by
    rw [execute, decoded]
    rfl
  rcases Machine.awaitKey_of_remembers remembers x with
    ⟨key, counted, least, looked⟩ | ⟨none, held, remembered, looked⟩
  · rw [looked] at ran
    exact .inl ⟨key, counted, least, ran⟩
  · rw [looked] at ran
    exact .inr ⟨none, held, remembered, ran⟩

/-- Carrying out anything else leaves the pending wait alone, and is no wait. -/
theorem keysHeld?_of_execute (ran : c.execute = (outcome, c'))
    (other : ∀ x, Instruction.decode c.machine.opcode ≠ some (.awaitKey x)) :
    c'.machine.keysHeld? = c.machine.keysHeld? ∧ outcome ≠ .waiting ∧
      ∀ x, outcome ≠ .executed (.awaitKey x) := by
  cases executes_of_execute ran with
  | unknown | refused => exact ⟨rfl, nofun, nofun⟩
  | @carried i flow m decoded carried =>
      have notWait : ∀ x, i ≠ .awaitKey x := by
        rintro x rfl
        exact other x decoded
      have same := (Machine.frame_of_carryOut carried).keysHeld? notWait
      refine ⟨same, ?_, ?_⟩
      · intro waiting
        cases flow <;> cases waiting
        -- Nothing but a wait stays where it is.
        obtain ⟨x, rfl⟩ := Machine.awaitKey_of_stay carried
        exact notWait x rfl
      · intro x taken
        cases flow <;> cases taken
        all_goals exact notWait x rfl

/-! ### The protocol -/

/-- The interpreter as step number `i` finds it, when the host does `gap i` before that step. -/
def attended (c : Interpreter) (gap : Nat → List Operation) : Nat → Interpreter
  | 0 => c.after (gap 0)
  | i + 1 => (attended c gap i).step.2.after (gap (i + 1))

/-- The keypads that the steps before step number `i` see. -/
def looksBefore (c : Interpreter) (gap : Nat → List Operation) (i : Nat) : List Keypad :=
  (List.range i).map fun j => (attended c gap j).machine.keypad

/-- A key counts at step number `i`: it is down there, and was up at an earlier step. -/
def CountsAt (c : Interpreter) (gap : Nat → List Operation) (i : Nat) (key : Nibble) : Prop :=
  (attended c gap i).machine.keypad.isDown key = true ∧
    ∃ j < i, (attended c gap j).machine.keypad.isDown key = false

theorem countsAt_iff (c : Interpreter) (gap : Nat → List Operation) (i : Nat) (key : Nibble) :
    CountsAt c gap i key ↔
      Keypad.Counts (looksBefore c gap i) (attended c gap i).machine.keypad key := by
  simp [CountsAt, Keypad.Counts, looksBefore]

theorem looksBefore_succ (c : Interpreter) (gap : Nat → List Operation) (i : Nat) :
    looksBefore c gap (i + 1) =
      looksBefore c gap i ++ [(attended c gap i).machine.keypad] := by
  simp [looksBefore, List.range_succ]

/-- A step at a wait: the same two ways as an execution has, seen from before the fetch. -/
theorem step_awaitKey
    (due : Instruction.decode (c.machine.memory.readWord c.machine.pc) = some (.awaitKey x))
    (remembers : Remembers looks c.machine.keysHeld?) :
    (∃ key, Keypad.Counts looks c.machine.keypad key ∧
      (∀ other, Keypad.Counts looks c.machine.keypad other → key ≤ other) ∧
      c.step = (.executed (.awaitKey x), c.fetch.takeKey x key)) ∨
    ((∀ key, ¬ Keypad.Counts looks c.machine.keypad key) ∧
      ∃ held, Remembers (looks ++ [c.machine.keypad]) (some held) ∧
        c.step = (.waiting, c.fetch.keepWaiting held)) :=
  execute_awaitKey (c := c.fetch) due remembers

/-- As long as no key has counted, every step finds the wait at its place, and the machine remembers
    the looks of the steps before it. -/
theorem attended_waits {gap : Nat → List Operation}
    (idle : ∀ i, ∀ operation ∈ gap i, operation.idle) (fresh : c.machine.keysHeld? = none)
    (due : Instruction.decode (c.machine.memory.readWord c.machine.pc) = some (.awaitKey x))
    (i : Nat) (uncounted : ∀ j < i, ∀ key, ¬ CountsAt c gap j key) :
    Instruction.decode ((attended c gap i).machine.memory.readWord
        (attended c gap i).machine.pc) = some (.awaitKey x) ∧
      Remembers (looksBefore c gap i) (attended c gap i).machine.keysHeld? := by
  induction i with
  | zero =>
      obtain ⟨same, memory⟩ := after_idle (c := c) (idle 0)
      rw [attended, same.pc, memory, same.keysHeld?, fresh]
      exact ⟨due, rfl⟩
  | succ i inductionHypothesis =>
      -- The place and the memory go through the induction together: the step before this one waited
      -- because what it remembered were the looks so far.
      obtain ⟨there, remembers⟩ := inductionHypothesis
        fun j earlier => uncounted j (Nat.lt_succ_of_lt earlier)
      obtain ⟨same, memory⟩ := after_idle (c := (attended c gap i).step.2) (idle (i + 1))
      rcases step_awaitKey there remembers with
        ⟨key, counted, -⟩ | ⟨-, held, remembered, stepped⟩
      · exact absurd ((countsAt_iff c gap i key).mpr counted) (uncounted i (Nat.lt_succ_self i) key)
      · rw [attended, same.pc, memory, same.keysHeld?, stepped, looksBefore_succ]
        exact ⟨there, remembered⟩

/-- Waiting for a key over any series of steps, with keys, timers, registers and the screen written
    in between. A step waits as long as no key counts: then nothing but the fetched word and the
    memory of the wait has changed. The first step at which a key counts takes the least such key,
    goes on and ends the wait. No key counts at the step that the wait begins with. -/
theorem wait_ends_at_first_fresh_key (c : Interpreter) (x : Nibble) (gap : Nat → List Operation)
    (idle : ∀ i, ∀ operation ∈ gap i, operation.idle) (fresh : c.machine.keysHeld? = none)
    (due : Instruction.decode (c.machine.memory.readWord c.machine.pc) = some (.awaitKey x)) :
    (∀ key, ¬ CountsAt c gap 0 key) ∧
    ∀ i, (∀ j < i, ∀ key, ¬ CountsAt c gap j key) →
      ((∀ key, ¬ CountsAt c gap i key) →
        ∃ held, (attended c gap i).step =
          (.waiting, (attended c gap i).fetch.keepWaiting held)) ∧
      ((∃ key, CountsAt c gap i key) →
        ∃ key, CountsAt c gap i key ∧ (∀ other, CountsAt c gap i other → key ≤ other) ∧
          (attended c gap i).step =
            (.executed (.awaitKey x), (attended c gap i).fetch.takeKey x key)) := by
  refine ⟨by simp [CountsAt], ?_⟩
  intro i uncounted
  obtain ⟨there, remembers⟩ := attended_waits idle fresh due i uncounted
  simp only [countsAt_iff]
  rcases step_awaitKey there remembers with
    ⟨key, counted, least, stepped⟩ | ⟨none, held, -, stepped⟩
  · exact ⟨fun none => absurd counted (none key), fun _ => ⟨key, counted, least, stepped⟩⟩
  · exact ⟨fun _ => ⟨held, stepped⟩, fun ⟨key, counted⟩ => absurd counted (none key)⟩

/-- A host who holds the key 3 when the wait begins, lets it go, and then holds two keys. -/
def repress : Nat → List Operation
  | 0 => [.machine (.setKey 3 true)]
  | 1 => [.machine (.setKey 3 false)]
  | 2 => [.machine (.setKey 3 true), .machine (.setKey 7 true)]
  | _ => []

/-- The key that was held does not end the wait; pressed again, it does. -/
theorem wait_ends_at_repress :
    (attended (ofProgram [0xF0, 0x0A]) repress 0).step.1 = .waiting ∧
    (attended (ofProgram [0xF0, 0x0A]) repress 1).step.1 = .waiting ∧
    (attended (ofProgram [0xF0, 0x0A]) repress 2).step.1 = .executed (.awaitKey 0) := by
  have idle : ∀ i, ∀ operation ∈ repress i, operation.idle
    | 0 | 1 | 2 => by decide
    | _ + 3 => nofun
  obtain ⟨due, uncounted, counted⟩ :
      Instruction.decode ((ofProgram [0xF0, 0x0A]).machine.memory.readWord
        (ofProgram [0xF0, 0x0A]).machine.pc) = some (.awaitKey 0) ∧
      (∀ j < 2, ∀ key, ¬ CountsAt (ofProgram [0xF0, 0x0A]) repress j key) ∧
      CountsAt (ofProgram [0xF0, 0x0A]) repress 2 3 := by
    simp only [CountsAt]
    decide +kernel
  have protocol := (wait_ends_at_first_fresh_key _ 0 repress idle rfl due).2
  obtain ⟨held, first⟩ := (protocol 0 nofun).1 (uncounted 0 (by decide))
  obtain ⟨held, second⟩ := (protocol 1 fun j earlier => uncounted j (Nat.lt_succ_of_lt earlier)).1
    (uncounted 1 (by decide))
  obtain ⟨key, -, -, third⟩ := (protocol 2 uncounted).2 ⟨3, counted⟩
  rw [first, second, third]
  exact ⟨rfl, rfl, rfl⟩

end Interpreter

end ChipEight
