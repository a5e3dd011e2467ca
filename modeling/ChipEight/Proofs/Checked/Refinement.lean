/-
Module: ChipEight.Proofs.Checked.Refinement
Purpose: Every instruction and every operation of the array machine performs what the interpreter
  does: it goes through, gives the same answer, and leaves a state that stands for the interpreter
  after it. The one exception is a host who names a place off the screen, who stops the machine
  before anything has changed.
Main exports: performs_run, performs_execute, performs_restart, performs_respond_of_fits,
  performs_respond, stops_respond, ends_build
-/
import ChipEight.Proofs.Checked.Loops
import ChipEight.Proofs.Invariant

namespace ChipEight.Checked

variable {c : Interpreter} {operation : Interpreter.Operation} {place : OffScreen}

/-! ### Conditions and operators -/

/-- The mask keeps the four bits that name a register or a key. -/
theorem and_nibble (number : Nat) : number &&& 0xF = (Fin.ofNat 16 number).val :=
  Nat.and_two_pow_sub_one_eq_mod number 4

theorem toNat_and_nibble (value : UInt8) : (value &&& 0xF).toNat = (Fin.ofNat 16 value.toNat).val := by
  rw [UInt8.toNat_and]
  exact and_nibble value.toNat

/-- The key that a register names is one of the sixteen. -/
theorem performs_namedKey (x : Nibble) :
    Performs (key (c.machine.register x &&& 0xF).toNat) c
      (c.machine.keypad.isDown (c.machine.namedKey x)) c := by
  rw [toNat_and_nibble]
  exact performs_key (c.machine.namedKey x)

theorem performs_holds (condition : Condition) :
    Performs (holds condition) c (condition.holds c.machine) c := by
  cases condition with
  | equalsByte x nn | differsFromByte x nn => exact .bind (performs_register x) (.pure _)
  | equals x y | differs x y =>
      exact .bind (performs_register x) (.bind (performs_register y) (.pure _))
  | keyDown x => exact .bind (performs_register x) (performs_namedKey x)
  | keyUp x => exact .bind (performs_register x) (.bind (performs_namedKey x) (.pure _))

theorem performs_combine (op : Operator) (x y : Nibble) :
    Performs (combine op x y) c () { c with machine := c.machine.combine c.dialect op x y } := by
  refine .bind (.get fun _ represents => represents.dialect)
    (.bind (performs_register x) (.bind (performs_register y) ?_))
  rw [Machine.combine]
  rcases op.apply c.dialect (c.machine.register x) (c.machine.register y) with ⟨value, _ | flag⟩
  · exact performs_setRegister x value
  · exact .bind (performs_setFlag flag) (performs_setRegister x value)

/-- The register of a jump with an offset is V0 or the one that the address names. -/
theorem performs_offsetRegister (addr : Address) :
    Performs (register (if c.dialect.jumpAddsVX then ((UInt16.ofNat addr >>> 8) &&& 0xF).toNat else 0))
      c (c.machine.register (Machine.offsetRegister c.dialect addr)) c := by
  have numbered : (if c.dialect.jumpAddsVX then ((UInt16.ofNat addr >>> 8) &&& 0xF).toNat else 0) =
      (Machine.offsetRegister c.dialect addr).val := by
    rw [Machine.offsetRegister]
    cases c.dialect.jumpAddsVX with
    | false => rfl
    | true =>
        show ((UInt16.ofNat addr >>> 8) &&& 0xF).toNat = addr.val / 0x100 % 16
        rw [UInt16.toNat_and, UInt16.toNat_shiftRight,
          UInt16.toNat_ofNat_of_lt' (Nat.lt_trans addr.isLt (by decide)), Nat.shiftRight_eq_div_pow]
        exact Nat.and_two_pow_sub_one_eq_mod _ 4
  rw [numbered]
  exact performs_register _

/-- The address of a glyph is a word, because the product of a byte and the size of a glyph is
    small. -/
theorem performs_glyphAddress (digit : UInt8) :
    Performs (glyphAddress digit) c (digit.toUInt16 * UInt16.ofNat Font.glyphSize) c := by
  have product : digit.toUInt16.toNat * (UInt16.ofNat Font.glyphSize).toNat < UInt16.size := by
    rw [UInt8.toNat_toUInt16]
    exact Nat.lt_trans (Nat.mul_lt_mul_of_pos_right digit.toNat_lt (by decide)) (by decide)
  have sum : (0 : UInt16).toNat + (digit.toUInt16 * UInt16.ofNat Font.glyphSize).toNat <
      UInt16.size := by
    rw [UInt16.toNat_zero, Nat.zero_add]
    exact UInt16.toNat_lt _
  have added : Performs (addWord 0 (digit.toUInt16 * UInt16.ofNat Font.glyphSize)) c
      (0 + digit.toUInt16 * UInt16.ofNat Font.glyphSize) c := .of_ends fun _ => .addWord sum
  rw [UInt16.zero_add] at added
  exact .bind (.of_ends fun _ => .mulWord product) added

/-! ### Instructions -/

/-- What an instruction makes of an interpreter, the program counter apart, and where control goes. -/
def carried (c : Interpreter) (i : Instruction) : Except Fault Flow × Interpreter :=
  match c.machine.carryOut c.dialect (c.generator.noiseFor i).1 i with
  | .ok (flow, machine) => (.ok flow, { c with machine, generator := (c.generator.noiseFor i).2 })
  | .error fault => (.error fault, c)

/-- A pointer that is no greater than the stack counts the open calls exactly. -/
theorem toNat_stackPointer (room : c.machine.stack.length ≤ Machine.stackDepth) :
    (UInt8.ofNat c.machine.stack.length).toNat = c.machine.stack.length :=
  UInt8.toNat_ofNat_of_lt' (Nat.lt_of_le_of_lt room (by decide))

/-- A return looks at the pointer first, and takes nothing off an empty stack. -/
theorem performs_run_ret (room : c.machine.stack.length ≤ Machine.stackDepth) :
    Performs (run .ret) c (carried c .ret).1 (carried c .ret).2 := by
  refine .bind performs_stackPointer (.bind (.get fun _ represents => represents.pc) ?_)
  have counted := toNat_stackPointer room
  rw [carried, Machine.carryOut]
  cases opened : c.machine.stack with
  | nil => exact .pure _
  | cons caller rest =>
      rw [opened] at counted
      have positive : UInt8.ofNat (caller :: rest).length ≠ 0 := by
        intro zero
        rw [zero] at counted
        cases counted
      rw [if_neg positive]
      exact .bind (performs_pop opened) (.pure _)

/-- A call looks at the pointer first, and puts nothing on a full stack. -/
theorem performs_run_call (addr : Address) (room : c.machine.stack.length ≤ Machine.stackDepth) :
    Performs (run (.call addr)) c (carried c (.call addr)).1 (carried c (.call addr)).2 := by
  refine .bind performs_stackPointer (.bind (.get fun _ represents => represents.pc) ?_)
  rw [toNat_stackPointer room, carried, Machine.carryOut]
  by_cases free : c.machine.stack.length < Machine.stackDepth
  · rw [if_pos free, if_neg (Nat.not_le.mpr free)]
    exact .bind (performs_push c.machine.pc free) (.pure _)
  · rw [if_neg free, if_pos (Nat.not_lt.mp free)]
    exact .pure _

/-- Every instruction is carried out without a trap. -/
theorem performs_run (i : Instruction) :
    Performs (run i) c (carried c i).1 (carried c i).2 := by
  cases i with
  | clearScreen => exact .bind performs_clear (.pure _)
  | ret => exact fun s represents => performs_run_ret represents.room s represents
  | jump addr => exact .pure _
  | call addr => exact fun s represents => performs_run_call addr represents.room s represents
  | skipIf condition => exact .bind (performs_holds condition) (.pure _)
  | loadByte x nn => exact .bind (performs_setRegister x nn) (.pure _)
  | addByte x nn => exact .bind (performs_register x) (.bind (performs_setRegister x _) (.pure _))
  | combine op x y => exact .bind (performs_combine op x y) (.pure _)
  | loadIndex addr => exact .change (.pure _) fun _ represents => { represents with index := rfl }
  | jumpOffset addr =>
      exact .bind (.get fun _ represents => represents.dialect)
        (.bind (performs_offsetRegister addr) (.pure _))
  | random x nn =>
      have drawn : Performs (update fun s => { s with generator := c.generator.next.2 }) c ()
          { c with generator := c.generator.next.2 } :=
        .update fun _ represents => { represents with generator := rfl }
      exact .bind (.get fun _ represents => represents.generator)
        (.bind drawn (.bind (performs_setRegister x _) (.pure _)))
  | draw x y n =>
      exact .bind (.get fun _ represents => represents.dialect)
        (.bind (performs_register x) (.bind (performs_register y)
          (.bind (performs_drawSprite _ _ n) (.bind (performs_setFlag _) (.pure _)))))
  | loadDelay x =>
      exact .bind (.get fun _ represents => represents.delayTimer)
        (.bind (performs_setRegister x _) (.pure _))
  | awaitKey x => exact .bind (performs_awaitKey x) (.pure _)
  | setDelay x =>
      exact .bind (performs_register x)
        (.change (.pure _) fun _ represents => { represents with delayTimer := rfl })
  | setSound x =>
      exact .bind (performs_register x)
        (.change (.pure _) fun _ represents => { represents with soundTimer := rfl })
  | addIndex x =>
      let sum := c.machine.index + (c.machine.register x).toUInt16
      have added : Performs (update fun s => { s with index := sum }) c ()
          { c with machine := { c.machine with index := sum } } :=
        .update fun _ represents => { represents with index := rfl }
      exact .bind (.get fun _ represents => represents.index)
        (.bind (performs_register x) (.bind added (.bind (performs_setFlag _) (.pure _))))
  | loadGlyph x =>
      exact .bind (performs_register x) (.bind (performs_glyphAddress _)
        (.change (.pure _) fun _ represents => { represents with index := rfl }))
  | storeDecimal x =>
      exact .bind (performs_register x) (.bind (.get fun _ represents => represents.index)
        (.bind (performs_writeByte _ _) (.bind (performs_writeByte _ _)
          (.bind (performs_writeByte _ _) (.pure _)))))
  | storeRegisters x => exact .bind (performs_storeRegisters x) (.pure _)
  | loadRegisters x => exact .bind (performs_loadRegisters x) (.pure _)

/-! ### Steps -/

theorem performs_fetch : Performs fetch c () c.fetch :=
  .bind (.get fun _ represents => represents.pc) (.bind (performs_readWord _)
    (.update fun _ represents => { represents with opcode := rfl }))

theorem performs_tick : Performs tick c () c.tick :=
  .update fun _ represents =>
    { represents with
      delayTimer := congrArg Machine.countDown represents.delayTimer
      soundTimer := congrArg Machine.countDown represents.soundTimer }

/-- A fault is counted as long as the count has room. -/
theorem performs_fail (fault : Fault) (few : (c.fail fault).2.faults < UInt64.size) :
    Performs (fail fault) c (.fault fault) (c.fail fault).2 := by
  have few : c.faults + 1 < UInt64.size := few
  have counted : (UInt64.ofNat c.faults).toNat = c.faults :=
    UInt64.toNat_ofNat_of_lt' (Nat.lt_of_succ_lt few)
  have fits : (UInt64.ofNat c.faults).toNat + 1 < UInt64.size := by
    rw [counted]
    exact few
  have next : (UInt64.ofNat c.faults + 1).toNat = c.faults + 1 := by
    rw [UInt64.toNat_add, counted]
    exact Nat.mod_eq_of_lt few
  refine .bind (.get fun _ represents => represents.pc) (.bind (.get (a := UInt64.ofNat c.faults) ?_)
    (.bind (.of_ends fun _ => .countUp fits)
      (.change (.pure _) fun _ represents => { represents with pc := rfl, faults := next })))
  intro s represents
  rw [← represents.faults, UInt64.ofNat_toNat]

/-- The word that was fetched last is carried out without a trap. -/
theorem performs_execute (few : c.execute.2.faults < UInt64.size) :
    Performs execute c c.execute.1 c.execute.2 := by
  rw [Interpreter.execute] at few ⊢
  refine .bind (.get fun _ represents => represents.pc)
    (.bind (.get fun _ represents => represents.opcode) ?_)
  cases decoded : Instruction.decode c.machine.opcode with
  | none =>
      rw [decoded] at few
      exact performs_fail _ few
  | some i =>
      rw [decoded] at few
      simp only [Interpreter.perform] at few ⊢
      have ran := performs_run (c := c) i
      rw [carried] at ran
      refine .bind ran ?_
      cases settled : c.machine.carryOut c.dialect (c.generator.noiseFor i).1 i with
      | error fault =>
          rw [settled] at few
          exact performs_fail fault few
      | ok result =>
          obtain ⟨flow, m⟩ := result
          cases flow with
          | stay =>
              -- The machine leaves its place alone, so the place after a wait is the one before it.
              have unmoved : c.machine.pc = m.pc := (Machine.frame_of_carryOut settled).pc.symm
              simp only [Flow.target, unmoved]
              exact .pure _
          | next | skip | jump =>
              exact .change (.pure _) fun _ represents => { represents with pc := rfl }

/-! ### Loading and restarting -/

theorem performs_restart : Performs restart c () { c with machine := c.machine.restart } := by
  have fits : 0 + c.machine.font.toList.length ≤ Memory.size := by
    rw [Vector.length_toList]
    decide
  -- The places that the memory and the registers pass through; screen and keys follow at the end.
  let erased : Interpreter := { c with machine := { c.machine with memory := Memory.zero } }
  let fonted : Interpreter := { c with machine := { c.machine with memory := c.machine.restart.memory } }
  let halted : Interpreter := { c with machine := { c.machine.restart with
    screen := c.machine.screen
    keypad := c.machine.keypad
    opcode := c.machine.opcode
    keysHeld? := c.machine.keysHeld? } }
  have erase : Performs (update fun s => { s with memory := Vector.replicate 4096 0 }) c () erased :=
    .update fun _ represents => { represents with memory := rfl }
  have copied : Performs (copy 0 c.machine.font.toList) erased () fonted := performs_copy fits
  have halt : Performs (update fun s =>
      { s with
        registers := Vector.replicate 16 0
        index := 0
        pc := UInt16.ofNat Machine.programStart
        stack := Vector.replicate 16 0
        stackPointer := 0
        delayTimer := 0
        soundTimer := 0 }) fonted () halted :=
    .update fun _ represents =>
      { represents with
        registers := rfl
        index := rfl
        pc := rfl
        stackPointer := rfl
        stack := rfl
        delayTimer := rfl
        soundTimer := rfl }
  exact .bind erase (.bind (.get fun _ represents => represents.font) (.bind copied (.bind halt
    (.bind performs_clear
      (.update fun _ represents =>
        { represents with keys := rfl, opcode := rfl, keysHeld? := rfl })))))

/-- A program that fits is copied, and any other is refused. -/
theorem performs_loadProgram (image : List UInt8) :
    Performs (loadProgram image) c ((c.machine.loadProgram image).map fun _ => ())
      { c with machine := (c.machine.settle (c.machine.loadProgram image)).2 } := by
  rw [loadProgram, Machine.loadProgram]
  by_cases fits : image.length ≤ Machine.maxProgramSize
  · rw [if_neg (Nat.not_lt.mpr fits), if_pos fits]
    have inside : Machine.programStart + image.length ≤ Memory.size :=
      Nat.add_le_of_le_sub' (by decide) fits
    exact .bind (performs_copy inside) (.pure _)
  · rw [if_pos (Nat.not_le.mp fits), if_neg fits]
    exact .pure _

/-- A font of the right size is kept and copied, and any other is refused. -/
theorem performs_loadFont (bytes : List UInt8) :
    Performs (loadFont bytes) c ((c.machine.loadFont bytes).map fun _ => ())
      { c with machine := (c.machine.settle (c.machine.loadFont bytes)).2 } := by
  rw [loadFont, Machine.loadFont]
  cases accepted : Font.ofBytes? bytes with
  | none => exact .pure _
  | some font =>
      have inside : 0 + bytes.length ≤ Memory.size := by
        rw [Font.ofBytes?] at accepted
        split at accepted
        case isTrue sized =>
          rw [sized]
          decide
        case isFalse => cases accepted
      have kept : Performs (update fun s => { s with font }) c ()
          { c with machine := { c.machine with font } } :=
        .update fun _ represents => { represents with font := rfl }
      exact .bind kept (.bind (performs_copy inside) (.pure _))

theorem performs_loadProgram_of_ok {image : List UInt8} {m : Machine}
    (loaded : c.machine.loadProgram image = .ok m) :
    Performs (loadProgram image) c (.ok ()) { c with machine := m } := by
  have performed := performs_loadProgram (c := c) image
  rw [loaded] at performed
  exact performed

theorem performs_loadFont_of_ok {bytes : List UInt8} {m : Machine}
    (loaded : c.machine.loadFont bytes = .ok m) :
    Performs (loadFont bytes) c (.ok ()) { c with machine := m } := by
  have performed := performs_loadFont (c := c) bytes
  rw [loaded] at performed
  exact performed

/-- A reset goes through, because the program fits. -/
theorem performs_reset (fits : c.program.length ≤ Machine.maxProgramSize) :
    Performs reset c (.ok ()) { c with
      machine := { c.machine.restart with
        memory := c.machine.restart.memory.store Machine.programStart c.program }
      faults := 0 } := by
  refine .bind performs_restart (.bind (.get fun _ represents => represents.program) ?_)
  have loaded := performs_loadProgram (c := { c with machine := c.machine.restart }) c.program
  rw [Machine.loadProgram, if_pos fits] at loaded
  exact .bind loaded (.change (.pure _) fun _ represents => { represents with faults := rfl })

/-! ### The host -/

/-- A host is told of a load what the interpreter tells. -/
theorem loadAnswer_map (m : Machine) (loaded : Except LoadError Machine) :
    loadAnswer (loaded.map fun _ => ()) = (m.settle loaded).1 := by
  cases loaded <;> rfl

/-- A place that the screen has is a pixel. -/
theorem pixel_of_onScreen {x y : Nat}
    (named : (if x < Screen.width ∧ y < Screen.height then none else some (⟨x, y⟩ : OffScreen)) = none) :
    ∃ p : Pixel, Pixel.ofCoordinates? x y = some p ∧ p.x.val = x ∧ p.y.val = y := by
  split at named
  case isTrue inside => exact ⟨_, dif_pos inside, rfl, rfl⟩
  case isFalse => cases named

theorem performs_respondScreen (operation : Screen.Operation) (named : operation.offScreen? = none) :
    Performs (respondScreen operation) c (c.machine.screen.perform operation).1
      { c with machine := { c.machine with screen := (c.machine.screen.perform operation).2 } } := by
  cases operation with
  | toggle x y =>
      obtain ⟨p, pixel, rfl, rfl⟩ := pixel_of_onScreen named
      rw [Screen.perform, pixel]
      exact .bind (performs_toggle p) (.pure _)
  | pixel x y =>
      obtain ⟨p, pixel, rfl, rfl⟩ := pixel_of_onScreen named
      rw [Screen.perform, pixel]
      exact .bind (performs_cell p) (.pure _)
  | clear => exact .bind performs_clear (.pure _)
  | isPending => exact .bind (.get fun _ represents => represents.pending) (.pure _)
  | setPending pending => exact .change (.pure _) fun _ represents => { represents with pending := rfl }
  | takePending =>
      exact .bind (.get fun _ represents => represents.pending)
        (.change (.pure _) fun _ represents => { represents with pending := rfl })
  | colors palette => exact .bind (.get fun _ represents => represents.cells) (.pure _)

theorem performs_respondMachine (operation : Machine.Operation)
    (named : Interpreter.Operation.offScreen? (.machine operation) = none) :
    Performs (respondMachine operation) c (c.machine.perform operation).1
      { c with machine := (c.machine.perform operation).2 } := by
  cases operation with
  | screen operation => exact .bind (performs_respondScreen operation named) (.pure _)
  | restart => exact .bind performs_restart (.pure _)
  | loadProgram image =>
      refine .bind (performs_loadProgram image) ?_
      rw [loadAnswer_map c.machine]
      exact .pure _
  | loadFont bytes =>
      refine .bind (performs_loadFont bytes) ?_
      rw [loadAnswer_map c.machine]
      exact .pure _
  | tick => exact .bind performs_tick (.pure _)
  | setDelayTimer value =>
      exact .change (.pure _) fun _ represents => { represents with delayTimer := rfl }
  | setSoundTimer value =>
      exact .change (.pure _) fun _ represents => { represents with soundTimer := rfl }
  | setKey k down =>
      refine .bind (.get fun _ represents => represents.keys) ?_
      rw [toNat_and_nibble]
      exact .bind (.of_ends fun _ => .replace (Fin.isLt _))
        (.change (.pure _) fun _ represents => { represents with keys := rfl })
  | setKeypad keypad => exact .change (.pure _) fun _ represents => { represents with keys := rfl }
  | setRegister number value =>
      rw [respondMachine, and_nibble]
      exact .bind (performs_setRegister _ value) (.pure _)
  | setIndex value => exact .change (.pure _) fun _ represents => { represents with index := rfl }
  | register number =>
      rw [respondMachine, and_nibble]
      exact .bind (performs_register _) (.pure _)
  | memory start length =>
      exact .bind (.get fun _ represents => represents.memory) (.pure _)

/-- An operation that names no place off the screen does what the interpreter does, a reset as long as
    the program fits. -/
theorem performs_respond_of_fits
    (fits : operation = .reset → c.program.length ≤ Machine.maxProgramSize)
    (named : operation.offScreen? = none) (few : (c.respond operation).2.faults < UInt64.size) :
    Performs (respond operation) c (c.respond operation).1 (c.respond operation).2 := by
  cases operation with
  | machine operation => exact .bind (performs_respondMachine operation named) (.pure _)
  | fetch => exact .bind performs_fetch (.pure _)
  | execute => exact .bind (performs_execute few) (.pure _)
  | step => exact .bind performs_fetch (.bind (performs_execute few) (.pure _))
  | tick => exact .bind performs_tick (.pure _)
  | reset =>
      rw [Interpreter.respond, Interpreter.reset_of_fits (fits rfl)]
      exact .bind (performs_reset (fits rfl)) (.pure _)

theorem performs_respond (wellFormed : c.WellFormed) (named : operation.offScreen? = none)
    (few : (c.respond operation).2.faults < UInt64.size) :
    Performs (respond operation) c (c.respond operation).1 (c.respond operation).2 :=
  performs_respond_of_fits (fun _ => wellFormed.fits) named few

/-! ### Places off the screen -/

/-- The action stops for this reason and has changed nothing. -/
def Stops {α : Type} (action : Action α) (s : State) (reason : Trap) : Prop :=
  action s = (.error reason, s)

theorem Stops.bind {α β : Type} {action : Action α} {next : α → Action β} {s : State} {reason : Trap}
    (stops : Stops action s reason) : Stops (action >>= next) s reason := by
  show Action.andThen action next s = _
  rw [Action.andThen, stops]

theorem stops_offset {x y : Nat} (s : State)
    (named : (if x < Screen.width ∧ y < Screen.height then none else some (⟨x, y⟩ : OffScreen)) =
      some place) : Stops (offset x y) s (.offScreen place) := by
  obtain ⟨outside, ⟨⟩⟩ := Option.ite_none_left_eq_some.mp named
  rw [Stops, offset, if_neg outside]
  rfl

/-- An operation that names a place off the screen stops at once. -/
theorem stops_respond (s : State) (named : operation.offScreen? = some place) :
    Stops (respond operation) s (.offScreen place) := by
  cases operation with
  | machine operation =>
      cases operation with
      | screen operation =>
          cases operation with
          | toggle x y | pixel x y => exact (stops_offset s named).bind.bind.bind.bind
          | _ => cases named
      | _ => cases named
  | _ => cases named

/-- The interpreter refuses an operation that names a place off the screen, and stays as it was. -/
theorem respond_of_offScreen (named : operation.offScreen? = some place) :
    c.respond operation = (.machine (.screen (.refused place)), c) := by
  cases operation with
  | machine operation =>
      cases operation with
      | screen operation =>
          cases operation with
          | toggle x y | pixel x y =>
              obtain ⟨outside, ⟨⟩⟩ := Option.ite_none_left_eq_some.mp named
              have refused : Pixel.ofCoordinates? x y = none := dif_neg outside
              simp only [Interpreter.respond, Machine.perform, Screen.perform, refused]
          | _ => cases named
      | _ => cases named
  | _ => cases named

/-! ### Building -/

/-- The interpreter of a setup, with a machine put into it. -/
def assemble (setup : Setup) (entropy : Cipher.Key) (machine : Machine) : Interpreter where
  machine := machine
  dialect := setup.dialect
  generator := match setup.seed? with
    | some seed => Generator.seeded seed
    | none => ⟨entropy, 0⟩
  program := setup.program
  faults := 0

/-- A blank state stands for a machine that has not even a font in its memory. -/
theorem represents_blank (setup : Setup) (entropy : Cipher.Key) :
    Represents (State.blank setup entropy)
      (assemble setup entropy { Machine.initial with memory := Memory.zero }) := by
  constructor <;> rfl

/-- A build of an interpreter is a build of the array machine. -/
theorem ends_build {setup : Setup} {entropy : Cipher.Key} (built : setup.build entropy = .ok c) :
    ∃ s, Ends (build setup) (State.blank setup entropy) (.ok ()) s ∧ Represents s c := by
  obtain ⟨machine, made, assembled⟩ := Except.bind_eq_ok.mp built
  cases assembled
  suffices performs : Performs (build setup)
      (assemble setup entropy { Machine.initial with memory := Memory.zero }) (.ok ())
      (assemble setup entropy machine) from performs _ (represents_blank setup entropy)
  refine .bind performs_restart ?_
  unfold Setup.machine at made
  cases chosen : setup.font? with
  | none =>
      rw [chosen] at made
      exact .bind (.pure _) (performs_loadProgram_of_ok (c := assemble setup entropy _) made)
  | some bytes =>
      rw [chosen] at made
      obtain ⟨fonted, loaded, made⟩ := Except.bind_eq_ok.mp made
      exact .bind (performs_loadFont_of_ok (c := assemble setup entropy _) loaded)
        (performs_loadProgram_of_ok (c := assemble setup entropy _) made)

end ChipEight.Checked
