/-
Module: ChipEight.Proofs.Checked.Representation
Purpose: When a state on plain arrays stands for an interpreter, and what it means that an action
  performs a change of the interpreter: from every state that stands for the interpreter before, the
  action goes through, with the result that is claimed, to a state that stands for the interpreter
  after. Actions one after the other perform changes one after the other, so that a trap is excluded
  where a cell is named and nowhere else.
Main exports: Represents, Ends, Performs, Performs.bind, performs_register, performs_writeByte,
  performs_push, performs_pop, performs_toggle
-/
import ChipEight.Proofs.Checked.Instructions

namespace ChipEight.Checked

/-- The arrays of a state hold what an interpreter holds. Of the stack, only the cells below the
    pointer count: the open calls, the oldest first. -/
structure Represents (s : State) (c : Interpreter) : Prop where
  memory : s.memory = c.machine.memory.cells
  registers : s.registers = c.machine.registers
  index : s.index = c.machine.index
  pc : s.pc = c.machine.pc
  stackPointer : s.stackPointer.toNat = c.machine.stack.length
  stack : s.stack.toList.take c.machine.stack.length = c.machine.stack.reverse
  delayTimer : s.delayTimer = c.machine.delayTimer
  soundTimer : s.soundTimer = c.machine.soundTimer
  cells : s.cells = c.machine.screen.cells.toArray
  pending : s.pending = c.machine.screen.pending
  keys : s.keys = c.machine.keypad.keys
  opcode : s.opcode = c.machine.opcode
  keysHeld? : s.keysHeld? = c.machine.keysHeld?.map Keypad.keys
  font : s.font = c.machine.font
  dialect : s.dialect = c.dialect
  generator : s.generator = c.generator
  program : s.program = c.program
  faults : s.faults.toNat = c.faults

variable {α β : Type} {c c' c'' : Interpreter} {s s' s'' : State} {a : α} {b : β}

/-! ### Actions that go through -/

/-- From the state `s` the action goes through, with the result `a`, to the state `s'`. -/
def Ends (action : Action α) (s : State) (a : α) (s' : State) : Prop := action s = (.ok a, s')

theorem Ends.pure : Ends (pure a) s a s := rfl

theorem Ends.get {part : State → α} : Ends (get part) s (part s) s := rfl

theorem Ends.update {change : State → State} : Ends (update change) s () (change s) := rfl

theorem Ends.bind {action : Action α} {next : α → Action β} (first : Ends action s a s')
    (second : Ends (next a) s' b s'') : Ends (action >>= next) s b s'' := by
  show Action.andThen action next s = _
  rw [Action.andThen, first]
  exact second

theorem Ends.lookup {n : Nat} {values : Vector α n} {i : Nat} (inside : i < n) :
    Ends (lookup values i) s values[i] s := by
  rw [Checked.lookup, dif_pos inside]
  exact .pure

theorem Ends.replace {n : Nat} {values : Vector α n} {i : Nat} {value : α} (inside : i < n) :
    Ends (replace values i value) s (values.set i value) s := by
  rw [Checked.replace, dif_pos inside]
  exact .pure

theorem Ends.addByte {a b : UInt8} (fits : a.toNat + b.toNat < UInt8.size) :
    Ends (addByte a b) s (a + b) s := by
  rw [Checked.addByte, if_pos fits]
  exact .pure

theorem Ends.subByte {a b : UInt8} (fits : b ≤ a) : Ends (subByte a b) s (a - b) s := by
  rw [Checked.subByte, if_pos fits]
  exact .pure

theorem Ends.addWord {a b : UInt16} (fits : a.toNat + b.toNat < UInt16.size) :
    Ends (addWord a b) s (a + b) s := by
  rw [Checked.addWord, if_pos fits]
  exact .pure

theorem Ends.mulWord {a b : UInt16} (fits : a.toNat * b.toNat < UInt16.size) :
    Ends (mulWord a b) s (a * b) s := by
  rw [Checked.mulWord, if_pos fits]
  exact .pure

theorem Ends.countUp {n : UInt64} (fits : n.toNat + 1 < UInt64.size) :
    Ends (countUp n) s (n + 1) s := by
  rw [Checked.countUp, if_pos fits]
  exact .pure

/-! ### Actions that perform a change -/

/-- From every state that stands for `c`, the action goes through with the result `a` to a state that
    stands for `c'`. -/
def Performs (action : Action α) (c : Interpreter) (a : α) (c' : Interpreter) : Prop :=
  ∀ s, Represents s c → ∃ s', Ends action s a s' ∧ Represents s' c'

/-- An action that goes through everywhere and changes nothing. -/
theorem Performs.of_ends {action : Action α} (ends : ∀ s, Ends action s a s) :
    Performs action c a c :=
  fun s represents => ⟨s, ends s, represents⟩

theorem Performs.pure (a : α) : Performs (pure a) c a c := .of_ends fun _ => .pure

theorem Performs.bind {action : Action α} {next : α → Action β} (first : Performs action c a c')
    (second : Performs (next a) c' b c'') : Performs (action >>= next) c b c'' := by
  intro s represents
  obtain ⟨s', ends, represents'⟩ := first s represents
  obtain ⟨s'', ends', represents''⟩ := second s' represents'
  exact ⟨s'', ends.bind ends', represents''⟩

theorem Performs.get {part : State → α} (same : ∀ s, Represents s c → part s = a) :
    Performs (get part) c a c := by
  intro s represents
  refine ⟨s, ?_, represents⟩
  rw [← same s represents]
  exact .get

theorem Performs.update {change : State → State}
    (same : ∀ s, Represents s c → Represents (change s) c') : Performs (update change) c () c' :=
  fun s represents => ⟨change s, .update, same s represents⟩

/-- A change and what follows it. -/
theorem Performs.change {change : State → State} {next : Unit → Action β}
    (second : Performs (next ()) c' b c'')
    (same : ∀ s, Represents s c → Represents (change s) c') :
    Performs (Checked.update change >>= next) c b c'' :=
  .bind (.update same) second

/-! ### Registers, keys and memory -/

theorem performs_register (x : Nibble) : Performs (register x) c (c.machine.register x) c :=
  .bind (.get fun _ represents => represents.registers) (.of_ends fun _ => .lookup x.isLt)

theorem performs_setRegister (x : Nibble) (value : UInt8) :
    Performs (setRegister x value) c () { c with machine := c.machine.setRegister x value } :=
  .bind (.get fun _ represents => represents.registers)
    (.bind (.of_ends fun _ => .replace x.isLt)
      (.update fun _ represents => { represents with registers := rfl }))

theorem performs_setFlag (flag : Bool) :
    Performs (setFlag flag) c () { c with machine := c.machine.setFlag flag } :=
  performs_setRegister 0xF _

theorem performs_key (k : Nibble) : Performs (key k) c (c.machine.keypad.isDown k) c :=
  .bind (.get fun _ represents => represents.keys) (.of_ends fun _ => .lookup k.isLt)

/-- The mask keeps exactly the bits that an address counts with. -/
theorem toNat_and_mask (address : UInt16) :
    (address &&& 0xFFF).toNat = (Memory.cell address).val := by
  rw [UInt16.toNat_and]
  exact Nat.and_two_pow_sub_one_eq_mod address.toNat 12

theorem performs_readByte (address : UInt16) :
    Performs (readByte address) c (c.machine.memory.read address) c := by
  rw [readByte, toNat_and_mask]
  exact .bind (.get fun _ represents => represents.memory) (.of_ends fun _ => .lookup (Memory.cell address).isLt)

theorem performs_writeByte (address : UInt16) (byte : UInt8) :
    Performs (writeByte address byte) c ()
      { c with machine := { c.machine with memory := c.machine.memory.write address byte } } := by
  rw [writeByte, toNat_and_mask]
  exact .bind (.get fun _ represents => represents.memory)
    (.bind (.of_ends fun _ => .replace (Memory.cell address).isLt)
      (.update fun _ represents => { represents with memory := rfl }))

theorem performs_readWord (address : UInt16) :
    Performs (readWord address) c (c.machine.memory.readWord address) c :=
  .bind (performs_readByte address) (.bind (performs_readByte (address + 1)) (.pure _))

theorem performs_copy {start : Nat} {bytes : List UInt8}
    (fits : start + bytes.length ≤ Memory.size) :
    Performs (copy start bytes) c ()
      { c with machine := { c.machine with memory := c.machine.memory.store start bytes } } := by
  rw [copy, if_pos fits]
  refine .update fun s represents => { represents with memory := ?_ }
  rw [represents.memory]

/-! ### The stack -/

/-- The pointer of a state counts the open calls. -/
theorem performs_stackPointer :
    Performs (get State.stackPointer) c (UInt8.ofNat c.machine.stack.length) c :=
  .get fun s represents => by rw [← represents.stackPointer, UInt8.ofNat_toNat]

/-- No more calls are open than the stack has cells. -/
theorem Represents.room (represents : Represents s c) :
    c.machine.stack.length ≤ Machine.stackDepth := by
  have counted := congrArg List.length represents.stack
  rw [List.length_take, List.length_reverse, Vector.length_toList] at counted
  rw [← counted]
  exact Nat.min_le_right _ _

/-- The innermost call stands in the cell below the pointer, the others below that. -/
theorem Represents.innermost {caller : UInt16} {rest : List UInt16} (represents : Represents s c)
    (opened : c.machine.stack = caller :: rest) (inside : rest.length < 16) :
    s.stack.toList.take rest.length = rest.reverse ∧ s.stack[rest.length] = caller := by
  have calls := represents.stack
  rw [opened, List.length_cons, List.reverse_cons,
    List.take_succ_eq_append_getElem (by rw [Vector.length_toList]; exact inside)] at calls
  have ⟨others, innermost⟩ := List.append_inj' calls rfl
  exact ⟨others, List.singleton_inj.mp innermost⟩

/-- A call finds a free cell below the end of the stack and moves the pointer above it. -/
theorem performs_push (place : UInt16) (free : c.machine.stack.length < Machine.stackDepth) :
    Performs (push place) c ()
      { c with machine := { c.machine with stack := place :: c.machine.stack } } := by
  intro s represents
  have pointed : s.stackPointer.toNat < 16 := by
    rw [represents.stackPointer]
    exact free
  have counted : s.stackPointer.toNat + (1 : UInt8).toNat < UInt8.size :=
    Nat.lt_trans (Nat.add_lt_add_right pointed 1) (by decide)
  refine ⟨_, .bind .get (.bind .get (.bind (.replace pointed) (.bind .update
    (.bind (.addByte counted) .update)))), ?_⟩
  refine { represents with stackPointer := ?_, stack := ?_ }
  · exact (UInt8.toNat_add _ _).trans ((Nat.mod_eq_of_lt counted).trans
      (congrArg (· + 1) represents.stackPointer))
  · show (s.stack.set s.stackPointer.toNat place).toList.take (c.machine.stack.length + 1) = _
    -- One cell more counts, and it is the one that was written.
    have long : c.machine.stack.length < (s.stack.toList.set c.machine.stack.length place).length := by
      rw [List.length_set, Vector.length_toList]
      exact free
    rw [Vector.toList_set, represents.stackPointer, List.take_succ_eq_append_getElem long,
      List.take_set_of_le (Nat.le_refl _), represents.stack, List.getElem_set_self,
      List.reverse_cons]

/-- A return finds the innermost call in the cell below the pointer and moves the pointer there. -/
theorem performs_pop {caller : UInt16} {rest : List UInt16}
    (opened : c.machine.stack = caller :: rest) :
    Performs pop c caller { c with machine := { c.machine with stack := rest } } := by
  intro s represents
  have inside : rest.length < 16 := by
    have room := represents.room
    rw [opened] at room
    exact room
  have pointer : s.stackPointer.toNat = rest.length + 1 := by
    rw [represents.stackPointer, opened, List.length_cons]
  have positive : 1 ≤ s.stackPointer := by
    rw [UInt8.le_iff_toNat_le, pointer]
    exact Nat.succ_le_succ (Nat.zero_le _)
  have below : (s.stackPointer - 1).toNat = rest.length := by
    rw [UInt8.toNat_sub_of_le _ _ positive, pointer]
    rfl
  obtain ⟨others, innermost⟩ := represents.innermost opened inside
  have ends : Ends pop s s.stack[(s.stackPointer - 1).toNat]
      { s with stackPointer := s.stackPointer - 1 } :=
    .bind .get (.bind (.subByte positive) (.bind .update (.bind .get (.lookup _))))
  simp only [below, innermost] at ends
  exact ⟨_, ends, { represents with stackPointer := below, stack := others }⟩

/-! ### The screen -/

/-- A place on the screen has the number of its cell. -/
theorem performs_offset (p : Pixel) : Performs (offset p.x p.y) c p.index.val c := by
  have numbered : p.y.val * Screen.width + p.x.val = p.index.val := by
    rw [Nat.add_comm, Nat.mul_comm]
    rfl
  rw [offset, if_pos ⟨p.x.isLt, p.y.isLt⟩, numbered]
  exact .pure _

theorem index_lt_size (screen : Screen) (p : Pixel) : p.index.val < screen.cells.toArray.size := by
  rw [Vector.size_toArray]
  exact p.index.isLt

theorem performs_cell (p : Pixel) :
    Performs (cell p.x p.y) c (c.machine.screen.cell p) c := by
  refine .bind (performs_offset p) (.bind (.get fun _ represents => represents.cells) ?_)
  rw [dif_pos (index_lt_size c.machine.screen p)]
  exact .pure _

/-- Inverting a pixel inverts its cell and no other. -/
theorem performs_toggle (p : Pixel) :
    Performs (toggle p.x p.y) c (c.machine.screen.isLit p)
      { c with machine := { c.machine with screen := (c.machine.screen.toggle p).2 } } := by
  refine .bind (performs_offset p) (.bind (.get fun _ represents => represents.cells) ?_)
  rw [dif_pos (index_lt_size c.machine.screen p)]
  exact .change (.pure _) fun _ represents => { represents with cells := rfl, pending := rfl }

theorem performs_clear :
    Performs clear c () { c with machine := { c.machine with screen := Screen.dark } } := by
  refine .update fun s represents => { represents with cells := ?_, pending := rfl }
  rw [represents.cells]
  show c.machine.screen.cells.toArray.map (fun _ => 0) = Screen.dark.cells.toArray
  rw [Array.map_const', Vector.size_toArray]
  rfl

end ChipEight.Checked
