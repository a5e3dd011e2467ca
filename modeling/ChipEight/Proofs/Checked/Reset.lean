/-
Module: ChipEight.Proofs.Checked.Reset
Purpose: A reset brings back the build, for the interpreter and for the plain arrays. A restart writes
  a zero into every cell of the stack, whether the cell is in use or not, and no load writes there;
  so the arrays after a reset have the stack that they had after the build, and in all other parts
  they stand for the interpreter after its reset.
Main exports: LeavesStack, stack_restart, stack_reset, stack_build, reset_restores_build
-/
import ChipEight.Proofs.Checked.Safety
import ChipEight.Proofs.Reset

namespace ChipEight.Checked

open Interpreter (Operation)

variable {α β : Type} {s s' : State}

/-! ### The cells of the stack -/

/-- The action writes no cell of the stack, whether it goes through or stops. -/
def LeavesStack (action : Action α) : Prop := ∀ s, (action s).2.stack = s.stack

theorem LeavesStack.pure (a : α) : LeavesStack (pure a) := fun _ => rfl

/-- What follows an action and leaves the stack alone finds it as the action left it. -/
theorem stack_bind (action : Action α) {next : α → Action β} (leaves : ∀ a, LeavesStack (next a))
    (s : State) : ((action >>= next) s).2.stack = (action s).2.stack := by
  change (Action.andThen action next s).2.stack = _
  rw [Action.andThen]
  cases ended : action s with
  | mk result s' =>
      cases result with
      | ok a => exact leaves a s'
      | error trap => rfl

theorem LeavesStack.bind {action : Action α} {next : α → Action β} (first : LeavesStack action)
    (second : ∀ a, LeavesStack (next a)) : LeavesStack (action >>= next) :=
  fun s => (stack_bind action second s).trans (first s)

theorem leavesStack_copy (start : Nat) (bytes : List UInt8) : LeavesStack (copy start bytes) := by
  rw [copy]
  split <;> exact fun _ => rfl

theorem leavesStack_loadProgram (image : List UInt8) : LeavesStack (loadProgram image) := by
  rw [loadProgram]
  split
  · exact .pure _
  · exact .bind (leavesStack_copy _ _) fun _ => .pure _

theorem leavesStack_loadFont (bytes : List UInt8) : LeavesStack (loadFont bytes) := by
  rw [loadFont]
  cases Font.ofBytes? bytes with
  | none => exact .pure _
  | some font => exact .bind (fun _ => rfl) fun _ => .bind (leavesStack_copy _ _) fun _ => .pure _

/-- A restart clears the whole stack. -/
theorem stack_restart (s : State) : (restart s).2.stack = Vector.replicate 16 0 := by
  have fits : 0 + s.font.toList.length ≤ Memory.size := by
    rw [Vector.length_toList]
    decide
  have copied (s' : State) : Ends (copy 0 s.font.toList) s' ()
      { s' with memory := (Memory.store ⟨s'.memory⟩ 0 s.font.toList).cells } := by
    rw [copy, if_pos fits]
    exact .update
  have ends : Ends restart s () _ :=
    .bind .update (.bind .get (.bind (copied _) (.bind .update (.bind .update .update))))
  rw [ends]

theorem stack_reset (s : State) : (reset s).2.stack = Vector.replicate 16 0 := by
  refine (stack_bind restart (fun _ => ?_) s).trans (stack_restart s)
  refine .bind (fun _ => rfl) fun program => .bind (leavesStack_loadProgram program) fun loaded => ?_
  cases loaded with
  | ok => exact .bind (fun _ => rfl) fun _ => .pure _
  | error e => exact .pure _

theorem stack_build (setup : Setup) (s : State) :
    (build setup s).2.stack = Vector.replicate 16 0 := by
  refine (stack_bind restart (fun _ => ?_) s).trans (stack_restart s)
  cases setup.font? with
  | none => exact leavesStack_loadProgram setup.program
  | some bytes =>
      refine .bind (leavesStack_loadFont bytes) fun fonted => ?_
      cases fonted with
      | ok => exact leavesStack_loadProgram setup.program
      | error e => exact .pure _

/-! ### Resets -/

/-- The arrays of a reset stand for the interpreter of the reset, and have a blank stack. -/
theorem ends_reset {c c' : Interpreter} (represents : Represents s c) (wellFormed : c.WellFormed)
    (restored : c.reset = .ok c') :
    ∃ s', Ends reset s (.ok ()) s' ∧ Represents s' c' ∧ s'.stack = Vector.replicate 16 0 := by
  obtain ⟨s', goes, after⟩ := performs_reset wellFormed.fits s represents
  have blank := stack_reset s
  rw [goes] at blank
  rw [wellFormed.reset] at restored
  cases restored
  exact ⟨s', goes, after, blank⟩

/-- A reset restores the build. After any session it succeeds and leaves the machine that the build
    made, but with the font that was loaded last, in the font cells too; there are no faults, the
    dialect and the program are those of the build, and the generator is where it was. The arrays
    of a reset stand for that interpreter, and their stack is that of the build in every cell. So if
    no font was loaded, every schedule of operations that executes no random instruction goes as
    it goes after the build. -/
theorem reset_restores_build {setup : Setup} {entropy : Cipher.Key} {c : Interpreter}
    (built : setup.build entropy = .ok c) :
    ∃ fresh, build setup (State.blank setup entropy) = (.ok (.ok ()), fresh) ∧
      ∀ history : List Operation, ∃ c', (c.after history).reset = .ok c' ∧
        c'.machine = c.machine.refont ((lastFont? (c.turns history)).getD c.machine.font) ∧
        (∀ (i : Nat) (inside : i < 4096), c'.machine.memory.cells[i] =
          if covered : i < 80 then c'.machine.font[i] else c.machine.memory.cells[i]) ∧
        c'.faults = 0 ∧ c'.dialect = c.dialect ∧ c'.program = c.program ∧
        c'.generator = (c.after history).generator ∧
        ((c.turns history).countP Turn.isFault < 2 ^ 64 →
          ∃ s', reset (fresh.after history) = (.ok (.ok ()), s') ∧ Represents s' c' ∧
            s'.stack = fresh.stack) ∧
        (lastFont? (c.turns history) = none → c'.machine = c.machine ∧
          ∀ schedule : List Operation,
            (∀ t ∈ c.turns schedule, t.usesChance = false) ∨
              (∀ t ∈ c'.turns schedule, t.usesChance = false) →
            c'.turns schedule = c.turns schedule ∧
              c'.after schedule = { c.after schedule with generator := c'.generator }) := by
  obtain ⟨fresh, ends, represents⟩ := ends_build built
  have isBuilt : c.Built := ⟨setup, entropy, built⟩
  have unfaulted : c.faults = 0 := (Setup.build_eq_ok built).2.2.2
  have clear : fresh.stack = Vector.replicate 16 0 := by
    have cleared := stack_build setup (State.blank setup entropy)
    rw [ends] at cleared
    exact cleared
  refine ⟨fresh, ends, fun history => ?_⟩
  have reached := isBuilt.wellFormed_after history
  have restored := isBuilt.reset_after history
  refine ⟨_, restored, rfl, ?_, unfaulted, rfl, rfl, rfl, ?_, ?_⟩
  · exact fun i inside => c.machine.getElem_refont _ inside
  · intro few
    have before := represents_after_of_built built represents few
    obtain ⟨s', goes, after, blank⟩ := ends_reset before reached restored
    exact ⟨s', goes, after, blank.trans clear.symm⟩
  · intro unfonted
    have same := restored.symm.trans (isBuilt.reset_of_unfonted unfonted)
    rw [Except.ok.injEq] at same
    rw [same]
    exact ⟨rfl, fun schedule calm => Interpreter.session_withGenerator_of_either calm⟩

/-- A host who lets a program draw a random number, loads another program over it, offers a font of a
    wrong size and holds a key. -/
def meddling : List Operation :=
  [.step, .step, .machine (.loadProgram [0x12, 0x00]), .machine (.loadFont [0x00]),
    .machine (.setKey 5 true)]

/-- The reset brings the first program back with its machine, which runs again as after the build,
    though the generator has moved on; and a font that was loaded stays. -/
theorem reset_restores_build_meddling :
    (∃ c', ((Interpreter.ofProgram [0x62, 0x07, 0xC0, 0xFF]).after meddling).reset = .ok c' ∧
      c'.machine = (Interpreter.ofProgram [0x62, 0x07, 0xC0, 0xFF]).machine ∧
      c'.generator.drawn = 1 ∧
      c'.turns [.machine (.setKey 3 true), .step] =
        (Interpreter.ofProgram [0x62, 0x07, 0xC0, 0xFF]).turns [.machine (.setKey 3 true), .step]) ∧
    ∃ c', ((Interpreter.ofProgram [0x62, 0x07, 0xC0, 0xFF]).after
        (meddling ++ [.machine (.loadFont (List.replicate 80 0xAA))])).reset = .ok c' ∧
      c'.machine = (Interpreter.ofProgram [0x62, 0x07, 0xC0, 0xFF]).machine.refont
        (Vector.replicate 80 0xAA) := by
  obtain ⟨drawn, unfonted, calm, fonted⟩ :
      ((Interpreter.ofProgram [0x62, 0x07, 0xC0, 0xFF]).after meddling).generator.drawn = 1 ∧
      lastFont? ((Interpreter.ofProgram [0x62, 0x07, 0xC0, 0xFF]).turns meddling) = none ∧
      (∀ t ∈ (Interpreter.ofProgram [0x62, 0x07, 0xC0, 0xFF]).turns
        [.machine (.setKey 3 true), .step], t.usesChance = false) ∧
      lastFont? ((Interpreter.ofProgram [0x62, 0x07, 0xC0, 0xFF]).turns
        (meddling ++ [.machine (.loadFont (List.replicate 80 0xAA))])) =
          some (Vector.replicate 80 0xAA) := by
    decide +kernel
  obtain ⟨fresh, -, resets⟩ := reset_restores_build
    (Interpreter.build_ofProgram [0x62, 0x07, 0xC0, 0xFF] (Vector.replicate 8 0) (by decide))
  refine ⟨?_, ?_⟩
  · obtain ⟨c', restored, -, -, -, -, -, generator, -, again⟩ := resets meddling
    obtain ⟨machine, runs⟩ := again unfonted
    refine ⟨c', restored, machine, ?_, (runs _ (.inl calm)).1⟩
    rw [generator]
    exact drawn
  · obtain ⟨c', restored, machine, -⟩ :=
      resets (meddling ++ [.machine (.loadFont (List.replicate 80 0xAA))])
    rw [fonted] at machine
    exact ⟨c', restored, machine⟩

end ChipEight.Checked
