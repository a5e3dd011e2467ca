/-
Module: ChipEight.Proofs.Invariant
Purpose: What holds of every interpreter that a host can reach from a build: no more calls are open
  than there may be, every screen cell is a zero or a one, and the program that a reset loads fits
  into memory, so that no reset fails.
Main exports: Screen.Binary, Interpreter.WellFormed, Interpreter.WellFormed.respond,
  Interpreter.Built.wellFormed_after, Interpreter.WellFormed.reset
-/
import ChipEight.Proofs.Execution

namespace ChipEight

namespace Screen

/-- Every cell is dark or lit, and nothing else. -/
def Binary (s : Screen) : Prop := ∀ i : Fin 2048, s.cells[i] = 0 ∨ s.cells[i] = 1

theorem binary_dark : dark.Binary := by
  intro i
  simp [dark]

/-- Inverting a pixel swaps the two values of its cell. -/
theorem Binary.toggle {s : Screen} (binary : s.Binary) (p : Pixel) : (s.toggle p).2.Binary := by
  intro i
  simp only [Screen.toggle, Fin.getElem_fin, Vector.getElem_set]
  split
  · rw [cell]
    rcases binary p.index with zero | one
    · exact .inr (by rw [zero]; rfl)
    · exact .inl (by rw [one]; rfl)
  · exact binary i

theorem Binary.toggleAll {s : Screen} (binary : s.Binary) (pixels : List Pixel) :
    (s.toggleAll pixels).2.Binary := by
  induction pixels generalizing s with
  | nil => exact binary
  | cons p rest inductionHypothesis => exact inductionHypothesis (binary.toggle p)

theorem Binary.perform {s : Screen} (binary : s.Binary) (operation : Operation) :
    (s.perform operation).2.Binary := by
  cases operation with
  | toggle x y =>
      rw [Screen.perform]
      split
      · exact binary.toggle _
      · exact binary
  | pixel x y =>
      rw [Screen.perform]
      split <;> exact binary
  | clear => exact binary_dark
  | isPending | setPending | takePending | colors => exact binary

end Screen

namespace Machine

variable {m m' : Machine} {d : Dialect} {noise : UInt8} {i : Instruction} {flow : Flow}

theorem binary_of_carryOut (binary : m.screen.Binary)
    (carried : m.carryOut d noise i = .ok (flow, m')) : m'.screen.Binary := by
  rcases (frame_of_carryOut carried).screen with same | cleared | ⟨pixels, drawn⟩
  · rw [same]
    exact binary
  · rw [cleared]
    exact Screen.binary_dark
  · rw [drawn]
    exact binary.toggleAll pixels

/-- A call finds room for itself. -/
theorem length_stack_of_carryOut (room : m.stack.length ≤ stackDepth)
    (carried : m.carryOut d noise i = .ok (flow, m')) : m'.stack.length ≤ stackDepth := by
  cases i with
  | call addr =>
      rw [carryOut] at carried
      split at carried
      case isTrue free =>
        cases carried
        exact free
      case isFalse => cases carried
  | ret =>
      obtain ⟨caller, rest, stack, -, rfl⟩ := carryOut_ret carried
      rw [stack, List.length_cons] at room
      exact Nat.le_of_succ_le room
  | _ =>
      rw [(frame_of_carryOut carried).stack]
      exact room

end Machine

namespace Interpreter

variable {c c' e : Interpreter} {outcome : Outcome} {operation : Operation}

/-- The invariant of every session. -/
structure WellFormed (c : Interpreter) : Prop where
  room : c.machine.stack.length ≤ Machine.stackDepth
  binary : c.machine.screen.Binary
  fits : c.program.length ≤ Machine.maxProgramSize

theorem WellFormed.execute (wellFormed : c.WellFormed) (ran : c.execute = (outcome, c')) :
    c'.WellFormed := by
  cases executes_of_execute ran with
  | unknown | refused => exact ⟨wellFormed.room, wellFormed.binary, wellFormed.fits⟩
  | carried decoded carried =>
      have room := Machine.length_stack_of_carryOut wellFormed.room carried
      have binary := Machine.binary_of_carryOut wellFormed.binary carried
      exact ⟨room, binary, wellFormed.fits⟩

/-- A reset does not fail if the program fits. -/
theorem reset_of_fits (fits : c.program.length ≤ Machine.maxProgramSize) :
    c.reset = .ok { c with
      machine := { c.machine.restart with
        memory := c.machine.restart.memory.store Machine.programStart c.program }
      faults := 0 } := by
  rw [Interpreter.reset, Machine.loadProgram, if_pos fits]
  rfl

/-- A reset of a reachable interpreter does not fail. -/
theorem WellFormed.reset (wellFormed : c.WellFormed) :
    c.reset = .ok { c with
      machine := { c.machine.restart with
        memory := c.machine.restart.memory.store Machine.programStart c.program }
      faults := 0 } :=
  reset_of_fits wellFormed.fits

/-- A restart of a reachable interpreter leaves a machine that is initial in everything but memory
    and font. -/
theorem machine_of_restart (wellFormed : c.WellFormed) (restarting : operation.restarts = true) :
    ∃ memory, (c.respond operation).2.machine = { c.machine.restart with memory } := by
  cases operation with
  | machine operation =>
      cases operation with
      | restart => exact ⟨_, rfl⟩
      | _ => cases restarting
  | reset =>
      rw [respond, wellFormed.reset]
      exact ⟨_, rfl⟩
  | _ => cases restarting

theorem wellFormed_perform (wellFormed : c.WellFormed) (operation : Machine.Operation) :
    { c with machine := (c.machine.perform operation).2 }.WellFormed := by
  by_cases restarting : operation = .restart
  · subst restarting
    exact ⟨Nat.zero_le _, Screen.binary_dark, wellFormed.fits⟩
  · refine ⟨?_, ?_, wellFormed.fits⟩
    -- Only a restart reaches the stack; the screen is written pixel by pixel.
    · rw [(sameControl_perform c.machine restarting).stack]
      exact wellFormed.room
    · by_cases loads : Operation.loads (.machine operation) = true
      · obtain ⟨memory, font, loaded⟩ := frame_of_loads c.machine loads
        rw [loaded]
        exact wellFormed.binary
      · cases operation with
        | screen operation => exact wellFormed.binary.perform operation
        | restart => exact absurd rfl restarting
        | loadProgram | loadFont => exact absurd rfl loads
        | _ => exact wellFormed.binary

/-- No operation leads out of the invariant. -/
theorem WellFormed.respond (wellFormed : c.WellFormed) (operation : Operation) :
    (c.respond operation).2.WellFormed := by
  cases operation with
  | machine operation => exact wellFormed_perform wellFormed operation
  | execute => exact wellFormed.execute rfl
  | step =>
      have fetched : c.fetch.WellFormed := ⟨wellFormed.room, wellFormed.binary, wellFormed.fits⟩
      exact fetched.execute rfl
  | reset =>
      rw [Interpreter.respond, wellFormed.reset]
      exact ⟨Nat.zero_le _, Screen.binary_dark, wellFormed.fits⟩
  | fetch | tick => exact ⟨wellFormed.room, wellFormed.binary, wellFormed.fits⟩

theorem WellFormed.after (wellFormed : c.WellFormed) (operations : List Operation) :
    (c.after operations).WellFormed := by
  induction operations generalizing c with
  | nil => exact wellFormed
  | cons operation rest inductionHypothesis =>
      exact inductionHypothesis (wellFormed.respond operation)

end Interpreter

/-! ### Fresh interpreters -/

theorem Except.bind_eq_ok {ε α β : Type} {first : Except ε α} {second : α → Except ε β} {b : β} :
    (first >>= second) = .ok b ↔ ∃ a, first = .ok a ∧ second a = .ok b := by
  cases first <;> simp [bind, Except.bind]

namespace Machine

variable {m m' : Machine}

/-- A program that is loaded fits, and only memory has changed. -/
theorem loadProgram_eq_ok {image : List UInt8} (loaded : m.loadProgram image = .ok m') :
    image.length ≤ maxProgramSize ∧ m' = { m with memory := m.memory.store programStart image } := by
  rw [loadProgram] at loaded
  split at loaded
  case isTrue fits =>
    cases loaded
    exact ⟨fits, rfl⟩
  case isFalse => cases loaded

/-- A font that is loaded stands at the start of memory and is kept; nothing else has changed. -/
theorem loadFont_eq_ok {bytes : List UInt8} (loaded : m.loadFont bytes = .ok m') :
    ∃ font, Font.ofBytes? bytes = some font ∧
      m' = { m with memory := m.memory.store 0 bytes, font } := by
  rw [loadFont] at loaded
  split at loaded
  case h_1 font accepted =>
    cases loaded
    exact ⟨font, accepted, rfl⟩
  case h_2 => cases loaded

end Machine

/-- A machine that was set up has its font, its program, and is initial in everything else. -/
theorem Setup.machine_eq_ok {setup : Setup} {m : Machine} (made : setup.machine = .ok m) :
    setup.program.length ≤ Machine.maxProgramSize ∧
      ∃ memory font, m = { Machine.initial with memory, font } := by
  unfold Setup.machine at made
  cases chosen : setup.font? with
  | none =>
      rw [chosen] at made
      obtain ⟨fits, rfl⟩ := Machine.loadProgram_eq_ok made
      exact ⟨fits, _, _, rfl⟩
  | some bytes =>
      rw [chosen] at made
      obtain ⟨fonted, loaded, made⟩ := Except.bind_eq_ok.mp made
      obtain ⟨font, -, rfl⟩ := Machine.loadFont_eq_ok loaded
      obtain ⟨fits, rfl⟩ := Machine.loadProgram_eq_ok made
      exact ⟨fits, _, _, rfl⟩

/-- A build has the machine that was set up, no faults, and the program for later resets. -/
theorem Setup.build_eq_ok {setup : Setup} {entropy : Cipher.Key} {c : Interpreter}
    (built : setup.build entropy = .ok c) :
    setup.machine = .ok c.machine ∧ c.dialect = setup.dialect ∧ c.program = setup.program ∧
      c.faults = 0 := by
  obtain ⟨m, made, built⟩ := Except.bind_eq_ok.mp built
  cases built
  exact ⟨made, rfl, rfl, rfl⟩

namespace Interpreter

variable {c : Interpreter}

/-- The interpreter of a program, with the seed zero and everything else left as it is. -/
def ofProgram (program : List UInt8) : Interpreter where
  machine := { Machine.initial with
    memory := Machine.initial.memory.store Machine.programStart program }
  dialect := {}
  generator := Generator.seeded 0
  program := program
  faults := 0

theorem build_ofProgram (program : List UInt8) (entropy : Cipher.Key)
    (fits : program.length ≤ Machine.maxProgramSize) :
    Setup.build { program, seed? := some 0 } entropy = .ok (ofProgram program) := by
  have loaded : Machine.initial.loadProgram program = .ok (ofProgram program).machine := if_pos fits
  have made : Setup.machine { program, seed? := some 0 } = .ok (ofProgram program).machine := loaded
  rw [Setup.build, made]
  rfl

theorem built_ofProgram {program : List UInt8} (fits : program.length ≤ Machine.maxProgramSize) :
    (ofProgram program).Built :=
  ⟨_, Vector.replicate 8 0, build_ofProgram program _ fits⟩

/-- A fresh machine is initial in everything but memory and font. -/
theorem Built.machine_eq (built : c.Built) :
    ∃ memory font, c.machine = { Machine.initial with memory, font } := by
  obtain ⟨setup, entropy, built⟩ := built
  exact (Setup.machine_eq_ok (Setup.build_eq_ok built).1).2

theorem Built.wellFormed (built : c.Built) : c.WellFormed := by
  obtain ⟨memory, font, initial⟩ := built.machine_eq
  obtain ⟨setup, entropy, built⟩ := built
  obtain ⟨made, -, program, -⟩ := Setup.build_eq_ok built
  refine ⟨?_, ?_, ?_⟩
  · rw [initial]
    exact Nat.zero_le _
  · rw [initial]
    exact Screen.binary_dark
  · rw [program]
    exact (Setup.machine_eq_ok made).1

theorem Built.wellFormed_after (built : c.Built) (operations : List Operation) :
    (c.after operations).WellFormed :=
  built.wellFormed.after operations

end Interpreter

end ChipEight
