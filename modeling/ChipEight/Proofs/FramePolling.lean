/-
Module: ChipEight.Proofs.FramePolling
Purpose: A renderer that polls misses nothing. It copies the screen whenever its poll finds a frame
  waiting, and keeps the copy that it has otherwise. Whatever changes a cell leaves a frame waiting,
  and only a poll takes the frame away, unless a host takes the flag down by hand; so while no frame
  waits, the copy is the screen.
Main exports: Screen.Advance, Turn.presents, Interpreter.advance_respond, Interpreter.shown,
  Interpreter.Current, Interpreter.no_frame_is_lost
-/
import ChipEight.Proofs.Devices

namespace ChipEight

open Interpreter (Operation)

namespace Screen

/-- What becomes of a screen when something presents a frame or does not, and takes the waiting one
    away or does not. A frame waits if one is presented, or if one was waiting and stays; and the
    cells are the same if none is presented. -/
structure Advance (s : Screen) (presents dismisses : Bool) (s' : Screen) : Prop where
  pending : s'.pending = (presents || (s.pending && !dismisses))
  cells : presents = false → s'.cells = s.cells

theorem Advance.refl (s : Screen) : s.Advance false false s where
  pending := by simp
  cells _ := rfl

/-- A screen with a frame waiting may have been changed in any way. -/
theorem Advance.of_pending {s s' : Screen} (waiting : s'.pending = true) (dismisses : Bool) :
    s.Advance true dismisses s' where
  pending := by simp [waiting]
  cells := nofun

namespace Operation

/-- The operation draws, or raises the flag. A place off the screen is refused. -/
def presents : Operation → Bool
  | .toggle x y => (Pixel.ofCoordinates? x y).isSome
  | .clear => true
  | .setPending pending => pending
  | _ => false

/-- The operation takes the flag down. -/
def dismisses : Operation → Bool
  | .takePending => true
  | .setPending pending => !pending
  | _ => false

end Operation

theorem advance_perform (s : Screen) (operation : Operation) :
    s.Advance operation.presents operation.dismisses (s.perform operation).2 := by
  cases operation with
  | toggle x y =>
      rw [Operation.presents, perform]
      cases Pixel.ofCoordinates? x y with
      | some p => exact .of_pending rfl _
      | none => exact .refl s
  | pixel x y =>
      rw [perform]
      cases Pixel.ofCoordinates? x y <;> exact .refl s
  | clear => exact .of_pending rfl _
  | setPending pending =>
      constructor
      · cases pending <;> simp [perform, Operation.presents, Operation.dismisses]
      · exact fun _ => rfl
  | takePending =>
      constructor
      · simp [perform, takePending, Operation.presents, Operation.dismisses]
      · exact fun _ => rfl
  | isPending | colors => exact .refl s

end Screen

/-! ### What makes a frame wait -/

namespace Interpreter

/-- A renderer asks whether a frame is waiting, and takes it. -/
def poll : Operation := .machine (.screen .takePending)

namespace Operation

/-- The operation makes a frame wait by itself: a host draws or raises the flag, or the machine starts
    again with a dark screen. -/
def presents : Operation → Bool
  | .machine (.screen operation) => operation.presents
  | .machine .restart | .reset => true
  | _ => false

/-- The operation takes the flag down. -/
def dismisses : Operation → Bool
  | .machine (.screen operation) => operation.dismisses
  | _ => false

end Operation

end Interpreter

namespace Turn

/-- The turn makes a frame wait: its operation does, or it executed an instruction that draws. -/
def presents (t : Turn) : Bool :=
  t.operation.presents || t.outcome?.any Outcome.draws

/-- The turn hands the screen to a renderer: it is a poll that finds a frame waiting. -/
def handsOver (t : Turn) : Bool :=
  t.operation = Interpreter.poll && t.answer = .machine (.screen (.flag true))

end Turn

namespace Interpreter

variable {c c' e : Interpreter} {outcome : Outcome} {operation : Operation}
  {copy : Vector UInt8 2048}

theorem presents_of_unprimed (unprimed : c.primed? operation = none) :
    (c.turn operation).presents = operation.presents := by
  rw [Turn.presents, turn_operation, outcome?_of_unprimed unprimed]
  simp

/-- The flag is taken down by a poll, or by hand. -/
theorem dismisses_iff :
    operation.dismisses = true ↔
      operation = poll ∨ operation = .machine (.screen (.setPending false)) := by
  cases operation with
  | machine operation =>
      cases operation with
      | screen operation =>
          cases operation <;> simp [Operation.dismisses, Screen.Operation.dismisses, poll]
      | _ => simp [Operation.dismisses, poll]
  | _ => simp [Operation.dismisses, poll]

/-- An execution presents a frame if its instruction draws. -/
theorem advance_execute (ran : c.execute = (outcome, c')) :
    c.machine.screen.Advance outcome.draws false c'.machine.screen := by
  have frame := deviceFrame_of_execute ran
  cases draws : outcome.draws with
  | true => exact .of_pending (frame.pending draws) _
  | false =>
      rw [frame.screen draws]
      exact .refl _

/-- A turn that carries out a word advances the screen as its outcome says. -/
theorem advance_of_primed (primed : c.primed? operation = some e) :
    c.machine.screen.Advance (c.turn operation).presents operation.dismisses
      (c.respond operation).2.machine.screen := by
  have presents : (c.turn operation).presents = e.execute.1.draws := by
    rw [Turn.presents, outcome?_of_primed primed]
    cases operation <;> cases primed <;> rfl
  have dismisses : operation.dismisses = false := by
    cases operation <;> cases primed <;> rfl
  have same : e.machine.screen = c.machine.screen := by
    obtain ⟨opcode, rfl⟩ := eq_of_primed primed
    rfl
  rw [presents, dismisses, respond_of_primed primed, ← same]
  exact advance_execute rfl

/-- A host advances the screen by the frame that its operation presents or takes away. -/
theorem advance_machine (m : Machine) (operation : Machine.Operation) :
    m.screen.Advance (Operation.presents (.machine operation))
      (Operation.dismisses (.machine operation)) (m.perform operation).2.screen := by
  by_cases loads : Operation.loads (.machine operation) = true
  · obtain ⟨memory, font, loaded⟩ := frame_of_loads m loads
    rw [loaded]
    cases operation with
    | loadProgram | loadFont => exact .refl _
    | _ => cases loads
  · cases operation with
    | screen operation => exact m.screen.advance_perform operation
    | restart => exact .of_pending rfl _
    | loadProgram | loadFont => exact absurd rfl loads
    | _ => exact .refl _

/-- Every turn advances the screen by the frames that it presents and takes away. -/
theorem advance_respond (wellFormed : c.WellFormed) (operation : Operation) :
    c.machine.screen.Advance (c.turn operation).presents operation.dismisses
      (c.respond operation).2.machine.screen := by
  cases operation with
  | execute | step => exact advance_of_primed rfl
  | reset =>
      rw [presents_of_unprimed rfl, respond, wellFormed.reset]
      exact .of_pending rfl _
  | fetch | tick =>
      rw [presents_of_unprimed rfl]
      exact .refl _
  | machine operation =>
      rw [presents_of_unprimed rfl]
      exact advance_machine c.machine operation

/-! ### The renderer -/

/-- The copy of a renderer after a turn: the screen, if the turn hands it over. -/
def copied (c : Interpreter) (copy : Vector UInt8 2048) (operation : Operation) :
    Vector UInt8 2048 :=
  if (c.turn operation).handsOver then (c.respond operation).2.machine.screen.cells else copy

/-- The copy of a renderer after a session. -/
def shown (c : Interpreter) (copy : Vector UInt8 2048) : List Operation → Vector UInt8 2048
  | [] => copy
  | operation :: rest => (c.respond operation).2.shown (c.copied copy operation) rest

theorem shown_concat (c : Interpreter) (copy : Vector UInt8 2048) (operations : List Operation)
    (operation : Operation) :
    c.shown copy (operations ++ [operation]) =
      (c.after operations).copied (c.shown copy operations) operation := by
  induction operations generalizing c copy with
  | nil => rfl
  | cons first rest inductionHypothesis => exact inductionHypothesis _ _

/-- While no frame waits, the copy is the screen. -/
def Current (c : Interpreter) (copy : Vector UInt8 2048) : Prop :=
  c.machine.screen.pending = false → copy = c.machine.screen.cells

/-- After a poll no frame waits. -/
theorem pending_poll (c : Interpreter) : (c.respond poll).2.machine.screen.pending = false := rfl

/-- A poll makes the copy the screen: either the screen is handed over, or the copy was the screen
    before. -/
theorem Current.poll (current : c.Current copy) :
    c.copied copy poll = (c.respond poll).2.machine.screen.cells := by
  cases waiting : c.machine.screen.pending with
  | true =>
      have hands : (c.turn Interpreter.poll).handsOver = true := by
        simp [Turn.handsOver, turn, respond, Interpreter.poll, Machine.perform, Screen.perform,
          Screen.takePending, waiting]
      rw [copied, if_pos hands]
  | false =>
      have keeps : (c.turn Interpreter.poll).handsOver = false := by
        simp [Turn.handsOver, turn, respond, Interpreter.poll, Machine.perform, Screen.perform,
          Screen.takePending, waiting]
      rw [copied, keeps]
      exact current waiting

/-- No turn but one that takes the flag down by hand makes the copy lag behind unnoticed. -/
theorem Current.respond (current : c.Current copy) (wellFormed : c.WellFormed)
    (unlowered : operation ≠ .machine (.screen (.setPending false))) :
    (c.respond operation).2.Current (c.copied copy operation) := by
  by_cases polled : operation = Interpreter.poll
  · subst polled
    exact fun _ => current.poll
  · have keeps : (c.turn operation).handsOver = false := by
      simp [Turn.handsOver, polled]
    have stays : operation.dismisses = false := by
      rw [Bool.eq_false_iff, Ne, dismisses_iff]
      exact not_or_intro polled unlowered
    have advance := advance_respond wellFormed operation
    intro still
    rw [advance.pending, stays] at still
    simp only [Bool.or_eq_false_iff, Bool.not_false, Bool.and_true] at still
    obtain ⟨quiet, before⟩ := still
    rw [copied, keeps, advance.cells quiet]
    exact current before

/-- Through every session the copy is the screen while no frame waits. -/
theorem Current.after (current : c.Current copy) (wellFormed : c.WellFormed)
    {operations : List Operation}
    (unlowered : ∀ operation ∈ operations, operation ≠ .machine (.screen (.setPending false))) :
    (c.after operations).Current (c.shown copy operations) := by
  induction operations generalizing c copy with
  | nil => exact current
  | cons operation rest inductionHypothesis =>
      apply inductionHypothesis
      · exact current.respond wellFormed (unlowered operation List.mem_cons_self)
      · exact wellFormed.respond operation
      · exact fun later member => unlowered later (List.mem_cons_of_mem _ member)

/-- A fresh screen is waiting to be looked at. -/
theorem Built.current (built : c.Built) (copy : Vector UInt8 2048) : c.Current copy := by
  obtain ⟨memory, font, initial⟩ := built.machine_eq
  rw [Current, initial]
  nofun

/-- If a frame waits after a session that began without one, some turn presented one. -/
theorem exists_presents_of_pending (wellFormed : c.WellFormed)
    (before : c.machine.screen.pending = false) {operations : List Operation}
    (waiting : (c.after operations).machine.screen.pending = true) :
    ∃ t ∈ c.turns operations, t.presents = true := by
  induction operations generalizing c with
  | nil =>
      rw [after_nil, before] at waiting
      cases waiting
  | cons operation rest inductionHypothesis =>
      rw [turns]
      cases presents : (c.turn operation).presents with
      | true => exact ⟨_, List.mem_cons_self, presents⟩
      | false =>
          have advance := (advance_respond wellFormed operation).pending
          rw [presents, before] at advance
          obtain ⟨t, member, presents⟩ :=
            inductionHypothesis (wellFormed.respond operation) advance waiting
          exact ⟨t, List.mem_cons_of_mem _ member, presents⟩

/-- No frame is lost. Whatever a renderer has copied at first, and whatever a session does without
    taking the flag down by hand, right after every poll the copy is the screen. And the flag is
    exact: while it is down, it goes up with the turns that present a frame and with no others, which
    execute `00E0` or `DXYN`, invert a pixel or clear the screen, restart or reset the machine, or raise
    the flag by hand. So after a poll it is up again only if such a turn came in between. -/
theorem no_frame_is_lost (built : c.Built) (copy : Vector UInt8 2048) (history : List Operation) :
    ((∀ operation ∈ history, operation ≠ .machine (.screen (.setPending false))) →
      c.shown copy (history ++ [poll]) = (c.after (history ++ [poll])).machine.screen.cells) ∧
    (∀ operation, (c.after history).machine.screen.pending = false →
      ((c.after (history ++ [operation])).machine.screen.pending = true ↔
        ((c.after history).turn operation).presents = true)) ∧
    ∀ later, (c.after (history ++ poll :: later)).machine.screen.pending = true →
      ∃ t ∈ (c.after (history ++ [poll])).turns later, t.presents = true := by
  have reached := built.wellFormed_after history
  refine ⟨?_, ?_, ?_⟩
  · intro unlowered
    have current := (built.current copy).after built.wellFormed unlowered
    rw [shown_concat, after_concat]
    exact current.poll
  · intro operation down
    rw [after_concat, (advance_respond reached operation).pending, down]
    simp
  · intro later waiting
    rw [after_append, after_cons] at waiting
    rw [after_concat]
    exact exists_presents_of_pending (reached.respond poll) (pending_poll _) waiting

/-- A program that draws a glyph and then clears the screen. -/
def flicker : Interpreter := ofProgram [0xD0, 0x05, 0x00, 0xE0]

/-- A renderer polls after the drawing, once more, and after the clearing. It ends with the dark screen,
    though its first copy was full of ones; and what the last poll finds was presented by the second
    step. -/
theorem no_frame_is_lost_flicker :
    flicker.shown (Vector.replicate 2048 1) ([.step, poll, poll, .step] ++ [poll]) =
      (flicker.after ([.step, poll, poll, .step] ++ [poll])).machine.screen.cells ∧
    ((flicker.after [.step, poll, poll]).turn .step).presents = true ∧
    ∃ t ∈ (flicker.after ([.step] ++ [poll])).turns [poll, .step], t.presents = true := by
  have built : flicker.Built := built_ofProgram (by decide)
  obtain ⟨down, up, again⟩ :
      (flicker.after [.step, poll, poll]).machine.screen.pending = false ∧
      (flicker.after ([.step, poll, poll] ++ [.step])).machine.screen.pending = true ∧
      (flicker.after ([.step] ++ poll :: [poll, .step])).machine.screen.pending = true := by
    decide +kernel
  have lost := no_frame_is_lost built (Vector.replicate 2048 1)
  obtain ⟨copied, -, -⟩ := lost [.step, poll, poll, .step]
  obtain ⟨-, raised, -⟩ := lost [.step, poll, poll]
  obtain ⟨-, -, presented⟩ := lost [.step]
  exact ⟨copied (by decide), (raised .step down).mp up, presented _ again⟩

end Interpreter

end ChipEight
