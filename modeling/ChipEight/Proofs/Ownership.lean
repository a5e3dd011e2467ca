/-
Module: ChipEight.Proofs.Ownership
Purpose: What belongs to an instruction. An interpreter is taken apart into parts as small as a memory
  cell, a register and a pixel; an instruction owns some of them, among memory the cells that I names,
  around the end if need be. An execution changes no part that its outcome does not own. So through a
  session that neither restarts nor loads, every cell keeps its byte that no instruction stored to.
Main exports: Part, Part.Same, Part.eq_of_same, Instruction.targets, Instruction.footprint,
  Instruction.owns, Outcome.owns, Machine.valueFrame_of_carryOut, Interpreter.same_of_execute,
  Interpreter.footprint, Interpreter.cell_after
-/
import ChipEight.Proofs.Devices
import ChipEight.Proofs.ListedProgram
import ChipEight.Proofs.Reset

namespace ChipEight

open Interpreter (Operation)

/-! ### Parts -/

/-- The parts of an interpreter. -/
inductive Part where
  | cell (address : Address)
  | register (r : Nibble)
  | index
  /-- The program counter. -/
  | place
  /-- The calls that have not returned. -/
  | calls
  | timer (timer : Timer)
  | pixel (p : Pixel)
  /-- A frame waits for a renderer. -/
  | pending
  | keypad
  | opcode
  /-- The pending wait for a key. -/
  | keyWait
  | font
  | dialect
  | generator
  /-- The program that a reset loads. -/
  | program
  | faults
deriving DecidableEq, Repr

namespace Part

variable {c c' : Interpreter}

/-- Two interpreters agree on a part. -/
def Same (c c' : Interpreter) : Part → Prop
  | .cell a => c'.machine.memory.cells.get a = c.machine.memory.cells.get a
  | .register r => c'.machine.register r = c.machine.register r
  | .index => c'.machine.index = c.machine.index
  | .place => c'.machine.pc = c.machine.pc
  | .calls => c'.machine.stack = c.machine.stack
  | .timer t => t.value c'.machine = t.value c.machine
  | .pixel p => c'.machine.screen.cell p = c.machine.screen.cell p
  | .pending => c'.machine.screen.pending = c.machine.screen.pending
  | .keypad => c'.machine.keypad = c.machine.keypad
  | .opcode => c'.machine.opcode = c.machine.opcode
  | .keyWait => c'.machine.keysHeld? = c.machine.keysHeld?
  | .font => c'.machine.font = c.machine.font
  | .dialect => c'.dialect = c.dialect
  | .generator => c'.generator = c.generator
  | .program => c'.program = c.program
  | .faults => c'.faults = c.faults

/-- Every cell of a screen is that of a pixel. -/
theorem screen_eq {s s' : Screen} (cells : ∀ p, s'.cell p = s.cell p)
    (pending : s'.pending = s.pending) : s' = s := by
  cases s
  cases s'
  cases pending
  congr 1
  refine Vector.ext fun i inside => ?_
  have row : i / 64 < 32 := Nat.div_lt_of_lt_mul inside
  have place : Pixel.index ⟨⟨i % 64, Nat.mod_lt i (by decide)⟩, ⟨i / 64, row⟩⟩ = ⟨i, inside⟩ :=
    Fin.ext (Nat.mod_add_div i 64)
  have same := cells ⟨⟨i % 64, Nat.mod_lt i (by decide)⟩, ⟨i / 64, row⟩⟩
  simp only [Screen.cell, place] at same
  exact same

/-- No part is missing: interpreters that agree on all of them are the same. -/
theorem eq_of_same (same : ∀ part : Part, part.Same c c') : c' = c := by
  have memory : c'.machine.memory = c.machine.memory :=
    Memory.ext_cells fun i inside => same (.cell ⟨i, inside⟩)
  have registers : c'.machine.registers = c.machine.registers :=
    Vector.ext fun i inside => same (.register ⟨i, inside⟩)
  have screen : c'.machine.screen = c.machine.screen :=
    screen_eq (fun p => same (.pixel p)) (same .pending)
  cases c with
  | mk m dialect generator program faults =>
      cases c' with
      | mk m' dialect' generator' program' faults' =>
          cases m
          cases m'
          simp only [Interpreter.mk.injEq, Machine.mk.injEq]
          exact ⟨⟨memory, registers, same .index, same .place, same .calls, same (.timer .delay),
            same (.timer .sound), screen, same .keypad, same .opcode, same .keyWait, same .font⟩,
            same .dialect, same .generator, same .program, same .faults⟩

end Part

/-! ### What an instruction owns -/

/-- The operator writes VF beside its result. -/
def Operator.setsFlag : Operator → Bool
  | .copy | .or | .and | .xor => false
  | .add | .sub | .shiftRight | .subFrom | .shiftLeft => true

namespace Instruction

/-- The registers that an instruction writes. -/
def targets : Instruction → List Nibble
  | .loadByte x _ | .addByte x _ | .random x _ | .loadDelay x | .awaitKey x => [x]
  | .combine op x _ => if op.setsFlag then [x, lowNibble 0xF] else [x]
  | .draw _ _ _ | .addIndex _ => [lowNibble 0xF]
  | .loadRegisters x => Machine.registersUpTo x
  | _ => []

/-- The cells that an instruction writes: three of them or one for each register, from I on and
    around the end of memory. -/
def footprint (m : Machine) : Instruction → List Address
  | .storeDecimal _ => (List.range 3).map fun r => lowAddress (m.index.toNat + r)
  | .storeRegisters x => (List.range (x + 1)).map fun r => lowAddress (m.index.toNat + r)
  | _ => []

/-- The instruction writes I. -/
def movesIndex (d : Dialect) : Instruction → Bool
  | .loadIndex _ | .addIndex _ | .loadGlyph _ => true
  | .storeRegisters _ | .loadRegisters _ => d.transferMovesIndex
  | _ => false

/-- The instruction opens or closes a call. -/
def movesCalls : Instruction → Bool
  | .call _ | .ret => true
  | _ => false

def awaitsKey : Instruction → Bool
  | .awaitKey _ => true
  | _ => false

/-- The parts that an instruction may change. -/
def owns (m : Machine) (d : Dialect) (i : Instruction) : Part → Bool
  | .cell a => a ∈ i.footprint m
  | .register r => r ∈ i.targets
  | .index => i.movesIndex d
  | .place => true
  | .calls => i.movesCalls
  | .timer t => (i.timerSource? t).isSome
  | .pixel _ | .pending => i.draws
  | .keyWait => i.awaitsKey
  | .generator => i.usesChance
  | .keypad | .opcode | .font | .dialect | .program | .faults => false

end Instruction

namespace Outcome

/-- The parts that an execution may change: those of the instruction, the pending wait if the program
    goes on waiting, and the place and the count after a fault. -/
def owns (m : Machine) (d : Dialect) : Outcome → Part → Bool
  | .executed i, part => i.owns m d part
  | .waiting, part => part == .keyWait
  | .fault _, part => part == .place || part == .faults

/-- The cells that an execution may change. -/
def footprint (m : Machine) : Outcome → List Address
  | .executed i => i.footprint m
  | _ => []

end Outcome

/-! ### Memory -/

/-- Places less than the size of memory apart have cells of their own. -/
theorem lowAddress_add_inj {start i j : Nat} (inside : i < 4096) (inside' : j < 4096) :
    lowAddress (start + i) = lowAddress (start + j) ↔ i = j := by
  rw [Fin.ext_iff]
  show (start + i) % 4096 = (start + j) % 4096 ↔ i = j
  omega

namespace Memory

theorem get_write (m : Memory) (address : UInt16) (byte : UInt8) (a : Address) :
    (m.write address byte).cells.get a = if a = cell address then byte else m.cells.get a := by
  show (m.cells.set (cell address) byte)[a.val] = if a = cell address then byte else m.cells[a.val]
  simp only [Vector.getElem_set, Fin.val_inj, eq_comm]

variable {ι : Type} (address : ι → UInt16) (byte : ι → UInt8)

/-- Bytes that are written one after the other change their own cells only. -/
theorem get_writes_of_outside (m : Memory) {is : List ι} {a : Address}
    (outside : ∀ i ∈ is, a ≠ cell (address i)) :
    (is.foldl (fun m i => m.write (address i) (byte i)) m).cells.get a = m.cells.get a := by
  induction is generalizing m with
  | nil => rfl
  | cons i rest inductionHypothesis =>
      obtain ⟨first, others⟩ := List.forall_mem_cons.mp outside
      rw [List.foldl_cons, inductionHypothesis _ others, get_write, if_neg first]

/-- Where every byte has a cell of its own, each of them stands there in the end. -/
theorem get_writes_of_mem (own : Function.Injective fun i => cell (address i)) (m : Memory)
    {is : List ι} {i : ι} (member : i ∈ is) :
    (is.foldl (fun m i => m.write (address i) (byte i)) m).cells.get (cell (address i)) =
      byte i := by
  induction is generalizing m with
  | nil => cases member
  | cons first rest inductionHypothesis =>
      rw [List.foldl_cons]
      by_cases later : i ∈ rest
      · exact inductionHypothesis _ later
      · obtain rfl : i = first := (List.mem_cons.mp member).resolve_right later
        have outside : ∀ j ∈ rest, cell (address i) ≠ cell (address j) := by
          rintro j among same
          exact later (own same ▸ among)
        rw [get_writes_of_outside address byte _ outside, get_write, if_pos rfl]

end Memory

/-! ### One instruction -/

/-- Whether VF is written does not depend on the values. -/
theorem Operator.isSome_flag (op : Operator) (d : Dialect) (a b : UInt8) :
    (op.apply d a b).2.isSome = op.setsFlag := by
  cases op <;> rfl

namespace Machine

variable {m m' : Machine} {d : Dialect} {noise : UInt8} {i : Instruction} {flow : Flow}
  {x r : Nibble} {value : UInt8}

theorem indexAfter_of_kept (kept : d.transferMovesIndex = false) :
    m.indexAfter d x = m.index := by
  rw [indexAfter, kept]
  rfl

/-! ### Stores -/

/-- The cells from I on are different ones, as long as they are not more than there are. -/
theorem cell_index_injective (m : Machine) {n : Nat} (few : n ≤ 4096) :
    Function.Injective fun r : Fin n => Memory.cell (m.index + UInt16.ofNat r) := by
  intro r r' same
  simp only [Memory.cell_add] at same
  exact Fin.ext ((lowAddress_add_inj (Nat.lt_of_lt_of_le r.isLt few)
    (Nat.lt_of_lt_of_le r'.isLt few)).mp same)

/-- A decimal digit of a byte: the hundreds, the tens or the ones. -/
def decimalDigit (v : UInt8) : Fin 3 → UInt8
  | 0 => v / 100
  | 1 => v / 10 % 10
  | 2 => v % 10

theorem memory_storeDecimal (m : Machine) (x : Nibble) :
    (m.storeDecimal x).memory =
      (List.finRange 3).foldl
        (fun memory r => memory.write (m.index + UInt16.ofNat r) (decimalDigit (m.register x) r))
        m.memory := by
  have first : m.index + UInt16.ofNat (0 : Fin 3) = m.index := UInt16.add_zero m.index
  show _ = ((m.memory.write (m.index + UInt16.ofNat (0 : Fin 3)) _).write (m.index + 1) _).write
    (m.index + 2) _
  rw [first]
  rfl

/-- The three digits stand from I on. -/
theorem get_storeDecimal (m : Machine) (x : Nibble) (r : Fin 3) :
    (m.storeDecimal x).memory.cells.get (lowAddress (m.index.toNat + r)) =
      decimalDigit (m.register x) r := by
  rw [memory_storeDecimal, ← Memory.cell_add]
  exact Memory.get_writes_of_mem _ _ (m.cell_index_injective (by decide)) _ (List.mem_finRange r)

theorem get_storeDecimal_of_not_mem {a : Address}
    (outside : a ∉ (Instruction.storeDecimal x).footprint m) :
    (m.storeDecimal x).memory.cells.get a = m.memory.cells.get a := by
  rw [memory_storeDecimal]
  apply Memory.get_writes_of_outside
  rintro r - rfl
  rw [Memory.cell_add] at outside
  exact outside (List.mem_map.mpr ⟨r, List.mem_range.mpr r.isLt, rfl⟩)

/-- The registers stand from I on. -/
theorem get_storeRegisters (m : Machine) (d : Dialect) {x r : Nibble} (upTo : r ≤ x) :
    (m.storeRegisters d x).memory.cells.get (lowAddress (m.index.toNat + r)) = m.register r := by
  rw [← Memory.cell_add]
  exact Memory.get_writes_of_mem m.transferAddress m.register (m.cell_index_injective (by decide)) _
    (mem_registersUpTo.mpr upTo)

theorem get_storeRegisters_of_not_mem {a : Address}
    (outside : a ∉ (Instruction.storeRegisters x).footprint m) :
    (m.storeRegisters d x).memory.cells.get a = m.memory.cells.get a := by
  apply Memory.get_writes_of_outside
  rintro r member rfl
  rw [transferAddress, Memory.cell_add] at outside
  have inside : r.val < x + 1 := Nat.lt_succ_of_le (mem_registersUpTo.mp member)
  exact outside (List.mem_map.mpr ⟨r, List.mem_range.mpr inside, rfl⟩)

/-- The digits are decimal, and the byte is what they say. -/
theorem decimalDigit_spec (v : UInt8) :
    (∀ r, (decimalDigit v r).toNat < 10) ∧
      100 * (decimalDigit v 0).toNat + 10 * (decimalDigit v 1).toNat + (decimalDigit v 2).toNat =
        v.toNat := by
  have hundreds : (decimalDigit v 0).toNat = v.toNat / 100 := UInt8.toNat_div v 100
  have tens : (decimalDigit v 1).toNat = v.toNat / 10 % 10 := by
    show (v / 10 % 10).toNat = _
    rw [UInt8.toNat_mod, UInt8.toNat_div]
    rfl
  have ones : (decimalDigit v 2).toNat = v.toNat % 10 := UInt8.toNat_mod v 10
  have small := v.toNat_lt
  refine ⟨fun r => ?_, by omega⟩
  match r with
  | 0 | 1 | 2 => omega

/-! ### Frames -/

/-- The values that a program computes with: an instruction leaves alone every register that is no
    target of it, I unless it moves it, and every cell outside its footprint. -/
structure ValueFrame (m : Machine) (d : Dialect) (i : Instruction) (m' : Machine) : Prop where
  register : ∀ r, r ∉ i.targets → m'.register r = m.register r
  index : i.movesIndex d = false → m'.index = m.index
  cell : ∀ a, a ∉ i.footprint m → m'.memory.cells.get a = m.memory.cells.get a

/-- What touches none of these values keeps to every frame. -/
theorem ValueFrame.untouched (registers : m'.registers = m.registers) (index : m'.index = m.index)
    (memory : m'.memory = m.memory) : m.ValueFrame d i m' where
  register r _ := congrArg (fun values : Vector UInt8 16 => values[r]) registers
  index _ := index
  cell a _ := by rw [memory]

theorem ValueFrame.of_setRegister (only : i.targets = [x]) :
    m.ValueFrame d i (m.setRegister x value) where
  register r other := by
    rw [only, List.mem_singleton] at other
    rw [register_setRegister, if_neg other]
  index _ := rfl
  cell a _ := rfl

theorem register_setFlag_of_not_mem {flag : Bool} (other : r ∉ [lowNibble 0xF]) :
    (m.setFlag flag).register r = m.register r :=
  (register_setFlag m flag r).trans (if_neg (List.ne_of_not_mem_cons other))

theorem register_combine_of_not_mem {op : Operator} {y : Nibble}
    (other : r ∉ (Instruction.combine op x y).targets) :
    (m.combine d op x y).register r = m.register r := by
  have flagged := op.isSome_flag d (m.register x) (m.register y)
  rw [combine]
  generalize op.apply d (m.register x) (m.register y) = applied at flagged ⊢
  rcases applied with ⟨value, _ | flag⟩
  · rw [Instruction.targets, ← flagged] at other
    show (m.setRegister x value).register r = _
    rw [register_setRegister, if_neg (List.ne_of_not_mem_cons other)]
  · rw [Instruction.targets, ← flagged] at other
    obtain ⟨notX, notFlag⟩ := List.ne_and_not_mem_of_not_mem_cons other
    show ((m.setFlag flag).setRegister x value).register r = _
    rw [register_setRegister, if_neg notX, register_setFlag_of_not_mem notFlag]

/-- Every instruction that is carried out keeps to its frame. -/
theorem valueFrame_of_carryOut (carried : m.carryOut d noise i = .ok (flow, m')) :
    m.ValueFrame d i m' := by
  cases i with
  | loadByte | addByte | random | loadDelay =>
      cases carried
      exact .of_setRegister rfl
  | combine op x y =>
      obtain ⟨registers, same⟩ := m.combine_frame d op x y
      have register : ∀ r, r ∉ (Instruction.combine op x y).targets →
          (m.combine d op x y).register r = m.register r :=
        fun _ => register_combine_of_not_mem
      rw [carryOut] at carried
      rw [same] at carried register
      cases carried
      exact ⟨register, fun _ => rfl, fun _ _ => rfl⟩
  | draw x y n =>
      cases carried
      exact ⟨fun r => register_setFlag_of_not_mem, fun _ => rfl, fun _ _ => rfl⟩
  | addIndex x =>
      cases carried
      exact ⟨fun r => register_setFlag_of_not_mem,
        fun kept => absurd kept Bool.true_eq_false.mp, fun _ _ => rfl⟩
  | awaitKey x =>
      rw [carryOut, awaitKey] at carried
      split at carried
      case h_1 key found =>
        cases carried
        have written : m.ValueFrame d (.awaitKey x) (m.setRegister x (UInt8.ofNat key)) :=
          .of_setRegister rfl
        exact ⟨written.register, written.index, written.cell⟩
      case h_2 =>
        cases carried
        exact .untouched rfl rfl rfl
  | loadIndex | loadGlyph =>
      cases carried
      exact ⟨fun _ _ => rfl, fun kept => absurd kept Bool.true_eq_false.mp, fun _ _ => rfl⟩
  | storeDecimal x =>
      cases carried
      exact ⟨fun _ _ => rfl, fun _ => rfl, fun a outside => get_storeDecimal_of_not_mem outside⟩
  | storeRegisters x =>
      cases carried
      exact ⟨fun _ _ => rfl, indexAfter_of_kept, fun a outside =>
        get_storeRegisters_of_not_mem outside⟩
  | loadRegisters x =>
      cases carried
      refine ⟨fun r other => ?_, indexAfter_of_kept, fun _ _ => rfl⟩
      have beyond : ¬ r ≤ x := fun upTo => other (mem_registersUpTo.mpr upTo)
      exact (Vector.getElem_ofFn r.isLt).trans (if_neg beyond)
  | ret =>
      obtain ⟨caller, rest, -, -, rfl⟩ := carryOut_ret carried
      exact .untouched rfl rfl rfl
  | call addr =>
      rw [carryOut] at carried
      split at carried <;> cases carried
      exact .untouched rfl rfl rfl
  | _ =>
      cases carried
      exact .untouched rfl rfl rfl

end Machine

/-! ### One execution -/

namespace Instruction

variable {i : Instruction}

theorem openAfter_of_unmoved (unmoved : i.movesCalls = false) (place : UInt16)
    (calls : List UInt16) : i.openAfter place calls = calls := by
  cases i with
  | call | ret => cases unmoved
  | _ => rfl

theorem ne_awaitKey (other : i.awaitsKey = false) (x : Nibble) : i ≠ .awaitKey x := by
  rintro rfl
  cases other

theorem ne_random (calm : i.usesChance = false) (x : Nibble) (nn : UInt8) : i ≠ .random x nn := by
  rintro rfl
  cases calm

end Instruction

namespace Interpreter

variable {c c' e : Interpreter} {outcome : Outcome} {operation : Operation}

/-- An instruction that is executed changes none of the parts that it does not own. -/
theorem same_of_carryOut {i : Instruction} {flow : Flow} {m : Machine} {part : Part}
    (carried : c.machine.carryOut c.dialect (c.generator.noiseFor i).1 i = .ok (flow, m))
    (unowned : i.owns c.machine c.dialect part = false) :
    part.Same c { c with
      machine := { m with pc := flow.target c.machine.pc }
      generator := (c.generator.noiseFor i).2 } := by
  have frame := Machine.frame_of_carryOut carried
  have values := Machine.valueFrame_of_carryOut carried
  have devices := Machine.deviceFrame_of_carryOut carried
  cases part with
  | cell a => exact values.cell a (of_decide_eq_false unowned)
  | register r => exact values.register r (of_decide_eq_false unowned)
  | index => exact values.index unowned
  | place => cases unowned
  | calls => exact frame.stack.trans (Instruction.openAfter_of_unmoved unowned _ _)
  | timer t =>
      have unset : i.timerSource? t = none := 
        Option.isNone_iff_eq_none.mp (Option.isSome_eq_false_iff.mp unowned)
      have kept := devices.timer t
      rw [unset] at kept
      cases t <;> exact kept
  | pixel p => exact congrArg (Screen.cell · p) (devices.screen unowned)
  | pending => exact congrArg Screen.pending (devices.screen unowned)
  | keypad => exact frame.keypad
  | opcode => exact (Machine.programFrame_of_carryOut carried).opcode
  | keyWait => exact frame.keysHeld? (Instruction.ne_awaitKey unowned)
  | font => exact frame.font
  | generator =>
      exact congrArg Prod.snd (noiseFor_of_ne (Instruction.ne_random unowned) c.generator)
  | dialect | program | faults => rfl

/-- An execution changes none of the parts that its outcome does not own. -/
theorem same_of_execute (ran : c.execute = (outcome, c')) {part : Part}
    (unowned : outcome.owns c.machine c.dialect part = false) : part.Same c c' := by
  cases executes_of_execute ran with
  | unknown | refused =>
      cases part with
      | place | faults => cases unowned
      | timer t => cases t <;> rfl
      | _ => rfl
  | @carried i flow m decoded carried =>
      cases flow with
      | stay =>
          -- While the program waits, no part but the wait is different.
          obtain ⟨x, rfl⟩ := Machine.awaitKey_of_stay carried
          rcases c.machine.awaitKey_frame x with ⟨registers, looked⟩ | ⟨held, looked⟩
          · rw [Machine.carryOut, looked] at carried
            cases carried
          · rw [Machine.carryOut, looked] at carried
            cases carried
            cases part with
            | keyWait => cases unowned
            | timer t => cases t <;> rfl
            | _ => rfl
      | next | skip | jump => exact same_of_carryOut carried unowned

/-- Nothing takes a frame away that waits for a renderer. -/
theorem pending_of_execute (ran : c.execute = (outcome, c'))
    (waits : c.machine.screen.pending = true) : c'.machine.screen.pending = true := by
  have frame := deviceFrame_of_execute ran
  cases draws : outcome.draws with
  | true => exact frame.pending draws
  | false =>
      rw [frame.screen draws]
      exact waits

/-- The digits that are stored stand from I on. -/
theorem digits_of_execute {x : Nibble} (ran : c.execute = (.executed (.storeDecimal x), c'))
    (r : Fin 3) :
    c'.machine.memory.cells.get (lowAddress (c.machine.index.toNat + r)) =
      Machine.decimalDigit (c.machine.register x) r := by
  obtain ⟨flow, m, carried, rfl⟩ := carried_of_executed ran
  cases carried
  exact c.machine.get_storeDecimal x r

/-- The registers that are stored stand from I on. -/
theorem registers_of_execute {x r : Nibble}
    (ran : c.execute = (.executed (.storeRegisters x), c')) (upTo : r ≤ x) :
    c'.machine.memory.cells.get (lowAddress (c.machine.index.toNat + r)) = c.machine.register r := by
  obtain ⟨flow, m, carried, rfl⟩ := carried_of_executed ran
  cases carried
  exact c.machine.get_storeRegisters c.dialect upTo

/-! ### Runs -/

/-- The cells that an operation stores to, if it carries out a word that stores. -/
def stores (c : Interpreter) (operation : Operation) : List Address :=
  match c.primed? operation with
  | some e => e.execute.1.footprint e.machine
  | none => []

/-- The cells that a session stores to. -/
def footprint (c : Interpreter) : List Operation → List Address
  | [] => []
  | operation :: rest => c.stores operation ++ (c.respond operation).2.footprint rest

theorem owns_cell_eq_false {a : Address} (outside : a ∉ outcome.footprint c.machine) :
    outcome.owns c.machine c.dialect (.cell a) = false := by
  cases outcome with
  | executed i => exact decide_eq_false outside
  | waiting | fault => rfl

/-- A cell that an operation does not store to keeps its byte. -/
theorem cell_respond {a : Address} (kept : operation.restarts = false)
    (unloaded : operation.loads = false) (outside : a ∉ c.stores operation) :
    (c.respond operation).2.machine.memory.cells.get a = c.machine.memory.cells.get a := by
  rw [stores] at outside
  cases primed : c.primed? operation with
  | none => rw [memory_respond primed kept unloaded]
  | some e =>
      rw [primed] at outside
      have same : e.machine.memory = c.machine.memory := by
        obtain ⟨opcode, rfl⟩ := eq_of_primed primed
        rfl
      have unchanged : Part.Same e e.execute.2 (.cell a) :=
        same_of_execute rfl (owns_cell_eq_false outside)
      rw [respond_of_primed primed, ← same]
      exact unchanged

/-- A cell that no operation of a session stores to keeps its byte through the session. -/
theorem cell_after {operations : List Operation} {a : Address}
    (quiet : ∀ operation ∈ operations, operation.restarts = false ∧ operation.loads = false)
    (outside : a ∉ c.footprint operations) :
    (c.after operations).machine.memory.cells.get a = c.machine.memory.cells.get a := by
  induction operations generalizing c with
  | nil => rfl
  | cons operation rest inductionHypothesis =>
      rw [footprint, List.mem_append, not_or] at outside
      obtain ⟨first, others⟩ := List.forall_mem_cons.mp quiet
      exact (inductionHypothesis others outside.2).trans (cell_respond first.1 first.2 outside.1)

end Interpreter

end ChipEight
