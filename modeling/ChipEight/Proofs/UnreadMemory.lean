/-
Module: ChipEight.Proofs.UnreadMemory
Purpose: Memory that is not read has no influence. A turn reads the word that it fetches, and after
  it the rows of the sprite or the bytes of the transfer that it carries out; all else that touches
  memory only writes. So interpreters that differ in some cells alone keep in step through every
  session that reads none of these cells in one of them, and whatever a program ends with beyond
  what it reads might as well not be there.
Main exports: Memory.AgreesOff, Instruction.reads, Machine.carryOut_agreesOff, Interpreter.reads,
  Interpreter.LeavesUnread, Interpreter.AgreesOff, Interpreter.AgreesOff.turn,
  Interpreter.unread_cells_have_no_influence
-/
import ChipEight.Proofs.Lockstep
import ChipEight.Proofs.Reset
import Mathlib.Data.Set.Basic

namespace ChipEight

open Interpreter (Operation)

/-- The memories agree in every cell outside `A`. -/
def Memory.AgreesOff (A : Set Address) (m m' : Memory) : Prop :=
  ∀ a : Address, a ∉ A → m'.cells[a] = m.cells[a]

namespace Memory.AgreesOff

variable {A : Set Address} {m m' : Memory}

theorem refl (A : Set Address) (m : Memory) : AgreesOff A m m := fun _ _ => rfl

theorem read_eq (agree : AgreesOff A m m') {address : UInt16} (outside : cell address ∉ A) :
    m'.read address = m.read address := agree _ outside

/-- The same byte is written to both, inside `A` or outside. -/
theorem write (agree : AgreesOff A m m') (address : UInt16) (byte : UInt8) :
    AgreesOff A (m.write address byte) (m'.write address byte) := by
  intro a outside
  simp only [Memory.write, Fin.getElem_fin, Vector.getElem_set]
  split
  · rfl
  · exact agree a outside

/-- A cell of `A` may be written in one of them alone. -/
theorem write_inside (agree : AgreesOff A m m') {address : UInt16} (inside : cell address ∈ A)
    (byte : UInt8) : AgreesOff A m (m'.write address byte) := by
  intro a outside
  have elsewhere : (cell address).val ≠ a.val := fun same => outside (Fin.ext same ▸ inside)
  simp only [Memory.write, Fin.getElem_fin, Vector.getElem_set, if_neg elsewhere]
  exact agree a outside

/-- Bytes that are written one after the other. -/
theorem writes {ι : Type} (agree : AgreesOff A m m') (address : ι → UInt16) (byte : ι → UInt8)
    (places : List ι) :
    AgreesOff A (places.foldl (fun memory r => memory.write (address r) (byte r)) m)
      (places.foldl (fun memory r => memory.write (address r) (byte r)) m') := by
  induction places generalizing m m' with
  | nil => exact agree
  | cons r rest inductionHypothesis => exact inductionHypothesis (agree.write (address r) (byte r))

/-- Bytes that are copied to both. -/
theorem store (agree : AgreesOff A m m') (start : Nat) (bytes : List UInt8) :
    AgreesOff A (m.store start bytes) (m'.store start bytes) := by
  intro a outside
  have same : m'.cells[a.val] = m.cells[a.val] := agree a outside
  simp only [Fin.getElem_fin, getElem_store, same]

/-- A sprite whose rows all lie outside `A` is the same in both. -/
theorem pixels_eq (agree : AgreesOff A m m') {address : UInt16} {height : Nat}
    (outside : ∀ r < height, cell (address + UInt16.ofNat r) ∉ A) (wraps : Bool) (x y : UInt8) :
    Sprite.pixels m' address height wraps x y = Sprite.pixels m address height wraps x y := by
  rw [Sprite.pixels, Sprite.pixels]
  apply List.flatMap_congr
  intro r member
  rw [agree.read_eq (outside r (List.mem_range.mp member))]

end Memory.AgreesOff

/-- The addresses that an instruction reads: the rows of a sprite, drawn or not, and the bytes of a
    transfer from memory. -/
def Instruction.reads (m : Machine) : Instruction → List UInt16
  | .draw _ _ n => (List.range n).map fun r => m.index + UInt16.ofNat r
  | .loadRegisters x => (Machine.registersUpTo x).map m.transferAddress
  | _ => []

/-! ### Instructions -/

namespace Machine

variable {A : Set Address} {m : Machine} {memory : Memory} {d : Dialect} {noise : UInt8}
  {i : Instruction}

/-- The machine with other memory. -/
def withMemory (m : Machine) (memory : Memory) : Machine := { m with memory }

/-- Two machines make the same of an instruction, but for cells of `A`. -/
inductive ResultAgreesOff (A : Set Address) :
    Except Fault (Flow × Machine) → Except Fault (Flow × Machine) → Prop where
  | ok {flow : Flow} {m : Machine} {memory : Memory} (agree : m.memory.AgreesOff A memory) :
      ResultAgreesOff A (.ok (flow, m)) (.ok (flow, m.withMemory memory))
  | error (f : Fault) : ResultAgreesOff A (.error f) (.error f)

theorem combine_withMemory (m : Machine) (memory : Memory) (d : Dialect) (op : Operator)
    (x y : Nibble) :
    (m.withMemory memory).combine d op x y = (m.combine d op x y).withMemory memory := by
  cases op <;> rfl

theorem holds_withMemory (m : Machine) (memory : Memory) (condition : Condition) :
    condition.holds (m.withMemory memory) = condition.holds m := by
  cases condition <;> rfl

theorem awaitKey_withMemory (m : Machine) (memory : Memory) (x : Nibble) :
    (m.withMemory memory).awaitKey x =
      ((m.awaitKey x).1, (m.awaitKey x).2.withMemory memory) := by
  simp only [awaitKey, withMemory]
  cases m.keypad.fresh? (m.keypad.meet (m.keysHeld?.getD m.keypad)) <;> rfl

theorem draw_withMemory (agree : m.memory.AgreesOff A memory) {x y n : Nibble}
    (unread : ∀ address ∈ (Instruction.draw x y n).reads m, Memory.cell address ∉ A) (d : Dialect) :
    (m.withMemory memory).draw d x y n = (m.draw d x y n).withMemory memory := by
  have outside (r : Nat) (inside : r < n) : Memory.cell (m.index + UInt16.ofNat r) ∉ A :=
    unread _ (List.mem_map.mpr ⟨r, List.mem_range.mpr inside, rfl⟩)
  have pixels := agree.pixels_eq outside d.wrapsSprites (m.register x) (m.register y)
  rw [draw, draw, ← pixels]
  rfl

theorem loadRegisters_withMemory (agree : m.memory.AgreesOff A memory) {x : Nibble}
    (unread : ∀ address ∈ (Instruction.loadRegisters x).reads m, Memory.cell address ∉ A)
    (d : Dialect) :
    (m.withMemory memory).loadRegisters d x = (m.loadRegisters d x).withMemory memory := by
  have loaded : (Vector.ofFn fun r =>
        if r ≤ x then memory.read (m.transferAddress r) else m.register r) =
      Vector.ofFn fun r =>
        if r ≤ x then m.memory.read (m.transferAddress r) else m.register r := by
    congr 1
    funext r
    split
    case isTrue among =>
      have listed : r ∈ registersUpTo x := mem_registersUpTo.mpr among
      exact agree.read_eq (unread _ (List.mem_map_of_mem listed))
    case isFalse => rfl
  rw [loadRegisters, loadRegisters, ← loaded]
  rfl

/-- Machines that agree outside `A` make the same of an instruction that reads nothing in `A`, and
    agree outside `A` again. -/
theorem carryOut_agreesOff (agree : m.memory.AgreesOff A memory)
    (unread : ∀ address ∈ i.reads m, Memory.cell address ∉ A) :
    ResultAgreesOff A (m.carryOut d noise i) ((m.withMemory memory).carryOut d noise i) := by
  -- Two instructions read memory and two write to it; the others neither look at it nor change it.
  cases i with
  | draw x y n =>
      rw [carryOut, carryOut, draw_withMemory agree unread]
      exact .ok agree
  | loadRegisters x =>
      obtain ⟨registers, index, same⟩ := m.loadRegisters_frame d x
      rw [carryOut, carryOut, loadRegisters_withMemory agree unread, same]
      exact .ok agree
  | storeDecimal x => exact .ok (((agree.write _ _).write _ _).write _ _)
  | storeRegisters x => exact .ok (agree.writes m.transferAddress m.register _)
  | combine op x y =>
      obtain ⟨registers, same⟩ := m.combine_frame d op x y
      rw [carryOut, carryOut, combine_withMemory, same]
      exact .ok agree
  | skipIf condition =>
      rw [carryOut, carryOut, holds_withMemory]
      exact .ok agree
  | awaitKey x =>
      rw [carryOut, carryOut, awaitKey_withMemory]
      rcases m.awaitKey_frame x with ⟨registers, looked⟩ | ⟨held, looked⟩
      all_goals
        rw [looked]
        exact .ok agree
  | ret =>
      simp only [carryOut, withMemory]
      split
      · exact .error _
      · exact .ok agree
  | call addr =>
      have sameDepth : (m.withMemory memory).stack.length = m.stack.length := rfl
      rw [carryOut, carryOut, sameDepth]
      split
      · exact .ok agree
      · exact .error _
  | _ => exact .ok agree

end Machine

/-- The host asks for no memory and does not have the program loaded again. -/
def Interpreter.Operation.blind : Operation → Bool
  | .reset | .machine (.memory _ _) => false
  | _ => true

namespace Interpreter

variable {A : Set Address} {program : List UInt8} {c c' : Interpreter} {operation : Operation}
  {operations : List Operation}

/-- The addresses of the word that an operation fetches. -/
def fetchReads (c : Interpreter) : Operation → List UInt16
  | .fetch | .step => [c.machine.pc, c.machine.pc + 1]
  | _ => []

/-- The addresses that the word reads that was fetched last. -/
def wordReads (c : Interpreter) : List UInt16 :=
  match Instruction.decode c.machine.opcode with
  | some i => i.reads c.machine
  | none => []

/-- The addresses that an operation reads. -/
def reads (c : Interpreter) (operation : Operation) : List UInt16 :=
  c.fetchReads operation ++
    match c.primed? operation with
    | some e => e.wordReads
    | none => []

/-- The operation is blind and reads nothing in `A`. -/
def LeavesUnread (A : Set Address) (c : Interpreter) (operation : Operation) : Prop :=
  operation.blind = true ∧ ∀ address ∈ c.reads operation, Memory.cell address ∉ A

instance [DecidablePred (· ∈ A)] (operation : Operation) :
    Decidable (c.LeavesUnread A operation) :=
  -- By going through the few addresses that are read, and not through all that there are.
  have : Decidable (∀ address ∈ c.reads operation, Memory.cell address ∉ A) :=
    List.decidableBAll _ (c.reads operation)
  inferInstanceAs (Decidable (_ ∧ _))

/-- The interpreters agree in everything but cells of `A`, and `program` is what the second one
    loads when it is reset. -/
def AgreesOff (A : Set Address) (program : List UInt8) (c c' : Interpreter) : Prop :=
  ∃ memory, c.machine.memory.AgreesOff A memory ∧
    c' = { c with machine := c.machine.withMemory memory, program }

namespace AgreesOff

theorem fetch (agree : c.AgreesOff A program c')
    (unread : ∀ address ∈ [c.machine.pc, c.machine.pc + 1], Memory.cell address ∉ A) :
    c.fetch.AgreesOff A program c'.fetch := by
  obtain ⟨memory, same, rfl⟩ := agree
  refine ⟨memory, same, ?_⟩
  have word : memory.readWord c.machine.pc = c.machine.memory.readWord c.machine.pc := by
    rw [Memory.readWord, Memory.readWord, same.read_eq (unread _ (by simp)),
      same.read_eq (unread _ (by simp))]
  simp only [Interpreter.fetch, Machine.fetch, Machine.withMemory, word]

theorem perform {i : Instruction} (agree : c.AgreesOff A program c')
    (unread : ∀ address ∈ i.reads c.machine, Memory.cell address ∉ A) :
    (c'.perform i).1 = (c.perform i).1 ∧
      (c.perform i).2.AgreesOff A program (c'.perform i).2 := by
  obtain ⟨memory, same, rfl⟩ := agree
  have results : Machine.ResultAgreesOff A
      (c.machine.carryOut c.dialect (c.generator.noiseFor i).1 i)
      ((c.machine.withMemory memory).carryOut c.dialect (c.generator.noiseFor i).1 i) :=
    Machine.carryOut_agreesOff same unread
  generalize carried : c.machine.carryOut c.dialect (c.generator.noiseFor i).1 i = result,
    carried' : (c.machine.withMemory memory).carryOut c.dialect (c.generator.noiseFor i).1 i =
      result' at results
  simp only [Interpreter.perform, carried, carried']
  cases results with
  | error f => exact ⟨rfl, _, same, rfl⟩
  | ok after => exact ⟨rfl, _, after, rfl⟩

theorem execute (agree : c.AgreesOff A program c')
    (unread : ∀ address ∈ c.wordReads, Memory.cell address ∉ A) :
    c'.execute.1 = c.execute.1 ∧ c.execute.2.AgreesOff A program c'.execute.2 := by
  have sameWord : c'.machine.opcode = c.machine.opcode := by
    obtain ⟨memory, -, rfl⟩ := agree
    rfl
  rw [wordReads] at unread
  rw [Interpreter.execute, Interpreter.execute, sameWord]
  cases decoded : Instruction.decode c.machine.opcode with
  | some i =>
      rw [decoded] at unread
      exact agree.perform unread
  | none =>
      obtain ⟨memory, same, rfl⟩ := agree
      exact ⟨rfl, memory, same, rfl⟩

/-- A host that asks for no memory is told the same of both. -/
theorem respond_machine {operation : Machine.Operation} (agree : c.AgreesOff A program c')
    (blind : Operation.blind (.machine operation) = true) :
    (c'.respond (.machine operation)).1 = (c.respond (.machine operation)).1 ∧
      (c.respond (.machine operation)).2.AgreesOff A program
        (c'.respond (.machine operation)).2 := by
  obtain ⟨memory, same, rfl⟩ := agree
  cases operation with
  | memory start length => cases blind
  | restart => exact ⟨rfl, _, .refl A _, rfl⟩
  | loadProgram image =>
      simp only [Interpreter.respond, Machine.perform, Machine.loadProgram, Machine.withMemory]
      split
      · exact ⟨rfl, _, same.store _ image, rfl⟩
      · exact ⟨rfl, _, same, rfl⟩
  | loadFont bytes =>
      simp only [Interpreter.respond, Machine.perform, Machine.loadFont, Machine.withMemory]
      split
      · exact ⟨rfl, _, same.store _ bytes, rfl⟩
      · exact ⟨rfl, _, same, rfl⟩
  | _ => exact ⟨rfl, memory, same, rfl⟩

/-- An operation that reads nothing in `A` is answered alike, and leaves both agreeing outside
    `A`. -/
theorem respond (agree : c.AgreesOff A program c') (leaves : c.LeavesUnread A operation) :
    (c'.respond operation).1 = (c.respond operation).1 ∧
      (c.respond operation).2.AgreesOff A program (c'.respond operation).2 := by
  obtain ⟨blind, unread⟩ := leaves
  rw [reads, List.forall_mem_append] at unread
  obtain ⟨unfetched, unused⟩ := unread
  cases operation with
  | machine operation => exact agree.respond_machine blind
  | reset => cases blind
  | tick =>
      obtain ⟨memory, same, rfl⟩ := agree
      exact ⟨rfl, memory, same, rfl⟩
  | fetch => exact ⟨rfl, agree.fetch unfetched⟩
  | execute =>
      obtain ⟨outcome, after⟩ := agree.execute unused
      exact ⟨congrArg Answer.outcome outcome, after⟩
  | step =>
      obtain ⟨outcome, after⟩ := (agree.fetch unfetched).execute unused
      exact ⟨congrArg Answer.outcome outcome, after⟩

/-- The whole turn is the same: the place and the keypad are no cells of memory. -/
theorem turn (agree : c.AgreesOff A program c') (leaves : c.LeavesUnread A operation) :
    c'.turn operation = c.turn operation ∧
      (c.respond operation).2.AgreesOff A program (c'.respond operation).2 := by
  obtain ⟨answer, after⟩ := agree.respond leaves
  refine ⟨?_, after⟩
  obtain ⟨memory, -, rfl⟩ := agree
  rw [Interpreter.turn, Interpreter.turn, answer]
  rfl

end AgreesOff

end Interpreter

/-! ### Longer programs -/

/-- The cells of bytes that are appended to a program. -/
def appendedCells (program extra : List UInt8) : Set Address :=
  {a | Machine.programStart + program.length ≤ a ∧
    a < Machine.programStart + program.length + extra.length}

instance (program extra : List UInt8) : DecidablePred (· ∈ appendedCells program extra) :=
  fun _ => inferInstanceAs (Decidable (_ ∧ _))

/-- Bytes that are appended to a program change their own cells only. -/
theorem Machine.fresh_append_agreesOff (font : Font) (program extra : List UInt8) :
    (fresh font program).memory.AgreesOff (appendedCells program extra)
      (fresh font (program ++ extra)).memory := by
  intro a outside
  rw [appendedCells, Set.mem_ofPred_eq, not_and_or, not_le, not_lt] at outside
  simp only [Fin.getElem_fin, getElem_fresh]
  split
  case isTrue behind =>
    rcases outside with before | after
    · rw [List.getElem?_append_left (by omega)]
    · -- Behind both programs there are zeros.
      have length : (program ++ extra).length = program.length + extra.length :=
        List.length_append
      rw [List.getElem?_eq_none (by omega), List.getElem?_eq_none (by omega)]
  case isFalse => rfl

/-- A machine that was set up has the font that was chosen, or else the standard one. -/
theorem Setup.font_of_machine {setup : Setup} {m : Machine} (made : setup.machine = .ok m) :
    m.font = (setup.font?.bind Font.ofBytes?).getD Font.standard := by
  rw [Setup.machine] at made
  cases chosen : setup.font? with
  | none =>
      rw [chosen] at made
      obtain ⟨-, rfl⟩ := Machine.loadProgram_eq_ok made
      rfl
  | some bytes =>
      rw [chosen] at made
      obtain ⟨fonted, loaded, made⟩ := Except.bind_eq_ok.mp made
      obtain ⟨font, accepted, rfl⟩ := Machine.loadFont_eq_ok loaded
      obtain ⟨-, rfl⟩ := Machine.loadProgram_eq_ok made
      rw [Option.bind_some, accepted, Option.getD_some]

/-- With another program, a build has another machine and the program for later resets; the font,
    the dialect and the generator are the same. -/
theorem Setup.build_choose_program {setup : Setup} {entropy : Cipher.Key} {program : List UInt8}
    {c c' : Interpreter} (built : setup.build entropy = .ok c)
    (other : (setup.choose (.program program)).build entropy = .ok c') :
    c' = { c with machine := Machine.fresh c.machine.font program, program } := by
  obtain ⟨m, made, built⟩ := Except.bind_eq_ok.mp built
  obtain ⟨m', made', other⟩ := Except.bind_eq_ok.mp other
  have sameFont : m'.font = m.font :=
    (Setup.font_of_machine made').trans (Setup.font_of_machine made).symm
  have fresh : m' = Machine.fresh m'.font program := Setup.machine_eq_fresh made'
  rw [sameFont] at fresh
  cases built
  cases other
  rw [fresh]
  rfl

namespace Interpreter

variable {A : Set Address} {c : Interpreter} {operations : List Operation}

/-- Builds of a program and of the same program with bytes appended to it agree outside the cells of
    these bytes. -/
theorem agreesOff_of_append {setup : Setup} {entropy : Cipher.Key} {extra : List UInt8}
    {c' : Interpreter} (built : setup.build entropy = .ok c)
    (appended : (setup.choose (.program (setup.program ++ extra))).build entropy = .ok c')
    (covered : appendedCells setup.program extra ⊆ A) :
    c.AgreesOff A (setup.program ++ extra) c' := by
  have fresh := Setup.machine_eq_fresh (Setup.build_eq_ok built).1
  have same := Machine.fresh_append_agreesOff c.machine.font setup.program extra
  rw [← fresh] at same
  refine ⟨_, fun a outside => same a fun among => outside (covered among), ?_⟩
  rw [Setup.build_choose_program built appended, Machine.withMemory]
  congr 1
  generalize c.machine.font = font at fresh ⊢
  rw [fresh]
  rfl

/-- Memory that is not read has no influence. Let a session leave the cells of `A` unread: no turn
    fetches a word from them, draws a sprite with a row in them or transfers a byte from them to a
    register. Then an interpreter that differs in cells of `A` takes the same turns through the
    session, and at every point of it the two differ in cells of `A` at most, whatever was written
    there. In particular bytes that are appended to the program of a build, and that the session
    does not read, change nothing but their own cells and what a reset would load. -/
theorem unread_cells_have_no_influence (unread : c.Throughout (LeavesUnread A) operations) :
    (∀ c', c.AgreesOff A c.program c' →
      Lockstep (fun c c' => c.AgreesOff A c.program c') c c' operations) ∧
    ∀ (setup : Setup) (entropy : Cipher.Key) (extra : List UInt8) (c' : Interpreter),
      setup.build entropy = .ok c →
      (setup.choose (.program (setup.program ++ extra))).build entropy = .ok c' →
      appendedCells setup.program extra ⊆ A →
      Lockstep (AgreesOff A (setup.program ++ extra)) c c' operations := by
  constructor
  · intro c' agree
    refine unread.lockstep ?_ agree
    intro c c' operation agree leaves
    rw [(sameSettings_respond c operation).program]
    exact agree.turn leaves
  · intro setup entropy extra c' built appended covered
    have agree := agreesOff_of_append built appended covered
    exact unread.lockstep (fun agree leaves => agree.turn leaves) agree

/-- A program that writes behind itself, draws the sprite of a digit and then stays at one place. -/
def writesBehind : List UInt8 :=
  [0xA2, 0x0C, 0xF0, 0x33, 0xF1, 0x55, 0xF0, 0x29, 0xD0, 0x05, 0x12, 0x0A]

/-- The program runs in step with and without bytes behind it: with a byte that was changed there,
    and with a longer program, of which it overwrites a part. -/
theorem unread_cells_have_no_influence_writesBehind :
    Lockstep (fun c c' => c.AgreesOff (appendedCells writesBehind [1, 2, 3, 4]) c.program c')
      (ofProgram writesBehind)
      { ofProgram writesBehind with
        machine := (ofProgram writesBehind).machine.withMemory
          ((ofProgram writesBehind).machine.memory.write 0x20F 0xFF) }
      [.step, .step, .step, .tick, .step, .machine (.setKey 5 true), .step, .step, .step] ∧
    Lockstep (AgreesOff (appendedCells writesBehind [1, 2, 3, 4]) (writesBehind ++ [1, 2, 3, 4]))
      (ofProgram writesBehind) (ofProgram (writesBehind ++ [1, 2, 3, 4]))
      [.step, .step, .step, .tick, .step, .machine (.setKey 5 true), .step, .step, .step] := by
  have unread : (ofProgram writesBehind).Throughout
      (LeavesUnread (appendedCells writesBehind [1, 2, 3, 4]))
      [.step, .step, .step, .tick, .step, .machine (.setKey 5 true), .step, .step, .step] := by
    decide +kernel
  obtain ⟨changed, appended⟩ := unread_cells_have_no_influence unread
  constructor
  · exact changed _ ⟨_, (Memory.AgreesOff.refl _ _).write_inside (by decide) _, rfl⟩
  · have built := build_ofProgram writesBehind (Vector.replicate 8 0) (by decide)
    have longer := build_ofProgram (writesBehind ++ [1, 2, 3, 4]) (Vector.replicate 8 0) (by decide)
    exact appended _ _ _ _ built longer subset_rfl

end Interpreter

end ChipEight
