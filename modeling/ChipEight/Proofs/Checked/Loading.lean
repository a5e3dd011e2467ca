/-
Module: ChipEight.Proofs.Checked.Loading
Purpose: Loads and restarts on plain arrays. No history of them names a cell that is not there, and
  all of them together write to memory and the font only: a restart brings back what a build made,
  dead cells of the stack included, and a load that fails writes nothing.
Main exports: Represents.eq_of_stack, State.holding, build_holding, respond_loading, after_loading,
  loads_lay_out_memory
-/
import ChipEight.Proofs.Checked.Reset
import ChipEight.Proofs.Loading

namespace ChipEight.Checked

variable {c : Interpreter} {s s' : State} {m : Machine} {operation : Machine.Operation}
  {history : List Machine.Operation}

/-! ### The cells of the stack -/

/-- A loader leaves a blank stack blank. -/
theorem stack_respond_of_isLoading (loading : operation.isLoading = true)
    (blank : s.stack = Vector.replicate 16 0) :
    (respond (.machine operation) s).2.stack = Vector.replicate 16 0 := by
  cases operation with
  | restart =>
      calc (respond (.machine .restart) s).2.stack
        _ = (respondMachine .restart s).2.stack := stack_bind _ (fun _ => .pure _) s
        _ = (restart s).2.stack := stack_bind restart (fun _ => .pure _) s
        _ = Vector.replicate 16 0 := stack_restart s
  | loadProgram image =>
      have leaves : LeavesStack (respond (.machine (.loadProgram image))) :=
        .bind (.bind (leavesStack_loadProgram image) fun _ => .pure _) fun _ => .pure _
      exact (leaves s).trans blank
  | loadFont bytes =>
      have leaves : LeavesStack (respond (.machine (.loadFont bytes))) :=
        .bind (.bind (leavesStack_loadFont bytes) fun _ => .pure _) fun _ => .pure _
      exact (leaves s).trans blank
  | _ => cases loading

/-- Two states that stand for the same interpreter and agree on the whole stack, dead cells included,
    are the same. -/
theorem Represents.eq_of_stack (represents : Represents s c) (represents' : Represents s' c)
    (stack : s.stack = s'.stack) : s = s' := by
  have pointer : s.stackPointer = s'.stackPointer :=
    UInt8.toNat_inj.mp (represents.stackPointer.trans represents'.stackPointer.symm)
  have faults : s.faults = s'.faults :=
    UInt64.toNat_inj.mp (represents.faults.trans represents'.faults.symm)
  obtain ⟨memory, registers, index, pc, -, -, delay, sound, cells, pending, keys, opcode, held, font,
    dialect, generator, program, -⟩ := represents
  obtain ⟨memory', registers', index', pc', -, -, delay', sound', cells', pending', keys', opcode',
    held', font', dialect', generator', program', -⟩ := represents'
  cases s
  cases s'
  simp_all

/-! ### Runs of loads -/

/-- The state with the memory and the font of a machine. -/
def State.holding (s : State) (m : Machine) : State :=
  { s with memory := m.memory.cells, font := m.font }

/-- Blank arrays with the memory and the font of a machine stand for that machine, if nothing else of
    it has been touched. -/
theorem represents_holding (setup : Setup) (entropy : Cipher.Key)
    (untouched : m = { Machine.initial with memory := m.memory, font := m.font }) :
    Represents ((State.blank setup entropy).holding m) (assemble setup entropy m) := by
  rw [untouched]
  exact { represents_blank setup entropy with memory := rfl, font := rfl }

/-- A build writes to the memory and the font of blank arrays, and to nothing else. -/
theorem build_holding {setup : Setup} {entropy : Cipher.Key} (built : setup.build entropy = .ok c) :
    build setup (State.blank setup entropy) =
      (.ok (.ok ()), (State.blank setup entropy).holding c.machine) := by
  obtain ⟨fresh, ends, represents⟩ := ends_build built
  have blank := stack_build setup (State.blank setup entropy)
  rw [ends] at blank
  have assembled : c = assemble setup entropy c.machine := by
    obtain ⟨m, -, made⟩ := Except.bind_eq_ok.mp built
    cases made
    rfl
  have untouched : c.machine =
      { Machine.initial with memory := c.machine.memory, font := c.machine.font } := by
    obtain ⟨memory, font, same⟩ := (Setup.machine_eq_ok (Setup.build_eq_ok built).1).2
    rw [same]
  rw [assembled] at represents
  rw [ends, represents.eq_of_stack (represents_holding setup entropy untouched) blank]

/-- A build without any choice writes the standard font to the memory of the arrays. -/
theorem build_blank (entropy : Cipher.Key) :
    build {} (State.blank {} entropy) =
      (.ok (.ok ()), (State.blank {} entropy).holding Machine.initial) := by
  have fits : ([] : List UInt8).length ≤ Machine.maxProgramSize := Nat.zero_le _
  have made : Setup.machine {} = .ok Machine.initial := by
    change Machine.initial.loadProgram [] = _
    rw [Machine.loadProgram, if_pos fits, Memory.store]
  have built : Setup.build {} entropy = .ok (assemble {} entropy Machine.initial) := by
    rw [Setup.build, made]
    rfl
  rw [build_holding built, assemble]

/-- After a history of loads, one more of them goes through on the arrays with the machine's answer,
    and writes to memory and the font alone. -/
theorem respond_loading (entropy : Cipher.Key)
    (loading : ∀ other ∈ history ++ [operation], other.isLoading = true) :
    respond (.machine operation)
        ((State.blank {} entropy).holding (Machine.initial.after history)) =
      (.ok (.machine ((Machine.initial.after history).perform operation).1),
        (State.blank {} entropy).holding (Machine.initial.after (history ++ [operation]))) := by
  obtain ⟨earlier, added⟩ := List.forall_mem_append.mp loading
  have last := added operation List.mem_cons_self
  have before := Machine.laidOut_after earlier
  have after := Machine.laidOut_after loading
  have onScreen : Interpreter.Operation.offScreen? (.machine operation) = none := by
    cases operation with
    | screen => cases last
    | _ => rfl
  obtain ⟨s', ends, represents⟩ :=
    performs_respondMachine operation onScreen _ (represents_holding {} entropy before.initial)
  have goes : respond (.machine operation) _ = (.ok (.machine _), s') := ends.bind .pure
  have blank := stack_respond_of_isLoading last
    (s := (State.blank {} entropy).holding (Machine.initial.after history)) rfl
  rw [goes] at blank
  have same : s' = (State.blank {} entropy).holding
      (Machine.initial.after (history ++ [operation])) := by
    refine represents.eq_of_stack ?_ blank
    rw [Machine.after_concat] at after ⊢
    exact represents_holding {} entropy after.initial
  rw [goes, same]
  rfl

/-- A whole history of loads writes to memory and the font alone. -/
theorem after_loading (entropy : Cipher.Key)
    (loading : ∀ other ∈ history, other.isLoading = true) :
    ((State.blank {} entropy).holding Machine.initial).after (history.map .machine) =
      (State.blank {} entropy).holding (Machine.initial.after history) := by
  induction history using List.reverseRecOn with
  | nil => rfl
  | append_singleton history operation inductionHypothesis =>
      have earlier := inductionHypothesis (List.forall_mem_append.mp loading).1
      rw [State.after] at earlier
      rw [List.map_append, List.map_singleton, State.after, List.foldl_concat, earlier,
        respond_loading entropy loading]

/-- Loads lay out memory. From a new machine on, after any history of loads and restarts with any
    bytes, the font cells hold the font that was taken last, whether before or after the last restart,
    the cells between the font and 0x200 are zero, and each cell behind holds the byte of the latest
    program since the last restart that reaches it; nothing else differs from a new machine. The
    next load is taken if its size is right, and otherwise leaves the machine as it is. The plain
    arrays go through all of this with the same answers, and keep every cell but those of memory and
    the font, so those of the stack as well. -/
theorem loads_lay_out_memory (entropy : Cipher.Key)
    (loading : ∀ other ∈ history, other.isLoading = true) :
    (Machine.initial.after history).LaidOut (Machine.lastFont history)
      (Machine.recentPrograms history) ∧
    (∀ image, ((Machine.initial.after history).perform (.loadProgram image)).1 = .loaded ↔
      image.length ≤ 3584) ∧
    (∀ bytes, ((Machine.initial.after history).perform (.loadFont bytes)).1 = .loaded ↔
      bytes.length = 80) ∧
    (∀ operation error, ((Machine.initial.after history).perform operation).1 = .rejected error →
      ((Machine.initial.after history).perform operation).2 = Machine.initial.after history) ∧
    build {} (State.blank {} entropy) =
      (.ok (.ok ()), (State.blank {} entropy).holding Machine.initial) ∧
    ((State.blank {} entropy).holding Machine.initial).after (history.map .machine) =
      (State.blank {} entropy).holding (Machine.initial.after history) ∧
    ∀ operation, operation.isLoading = true →
      respond (.machine operation)
          ((State.blank {} entropy).holding (Machine.initial.after history)) =
        (.ok (.machine ((Machine.initial.after history).perform operation).1),
          (State.blank {} entropy).holding
            ((Machine.initial.after history).perform operation).2) := by
  refine ⟨Machine.laidOut_after loading, ?_, ?_, ?_, build_blank entropy,
    after_loading entropy loading, ?_⟩
  · intro image
    rw [Machine.perform_loadProgram]
    split <;> simp_all
  · intro bytes
    rcases (Machine.initial.after history).perform_loadFont bytes with
      ⟨sized, font, -, taken⟩ | ⟨sized, refused⟩
    · simp [taken, sized]
    · simp [refused, sized]
  · intro operation error rejected
    exact Machine.perform_of_rejected rejected
  · intro operation last
    have all := List.forall_mem_append.mpr ⟨loading, List.forall_mem_singleton.mpr last⟩
    rw [respond_loading entropy all, Machine.after_concat]

/-- A loader brings a font and a program, restarts, and brings two programs, the second shorter than the
    first, and a font of a wrong size. -/
def overlapping : List Machine.Operation :=
  [.loadFont (List.replicate 80 0xAA), .loadProgram [1, 2, 3, 4, 5], .restart,
    .loadProgram [6, 7, 8], .loadProgram [9], .loadFont [0]]

/-- The font has outlived the restart and the failed load; of the programs behind the restart the
    shorter one covers its own cell, and the cells of the program before the restart are empty. A
    program that is one byte too long is refused. -/
theorem loads_lay_out_memory_overlapping :
    (∀ other ∈ overlapping, other.isLoading = true) ∧
    (Machine.initial.after overlapping).memory.cells[0x4F] = 0xAA ∧
    (Machine.initial.after overlapping).memory.cells[0x200] = 9 ∧
    (Machine.initial.after overlapping).memory.cells[0x201] = 7 ∧
    (Machine.initial.after overlapping).memory.cells[0x204] = 0 ∧
    ((Machine.initial.after overlapping).perform (.loadProgram (List.replicate 3585 0))).1 ≠
      .loaded := by
  have loading : ∀ other ∈ overlapping, other.isLoading = true := by decide
  obtain ⟨laidOut, programs, -⟩ :=
    loads_lay_out_memory (Vector.replicate 8 0) loading
  refine ⟨loading, laidOut.cells 0x4F (by decide), laidOut.cells 0x200 (by decide),
    laidOut.cells 0x201 (by decide), laidOut.cells 0x204 (by decide), ?_⟩
  rw [Ne, programs, List.length_replicate]
  decide

end ChipEight.Checked
