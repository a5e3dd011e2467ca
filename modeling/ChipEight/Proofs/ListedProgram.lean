/-
Module: ChipEight.Proofs.ListedProgram
Purpose: A listing tells what a program will do. A row of the listing and the two cells that it was made
  from hold the same word, so that a step at the row fetches that word and ends as the row says. The
  cells keep the program as long as no instruction stores anything and no host loads or restarts:
  nothing else writes memory.
Main exports: Listing.getElem?_disassemble, Listing.Row.Foretells, Memory.HoldsRow, Instruction.stores,
  Machine.programFrame_of_carryOut, Interpreter.memory_after, Interpreter.step_ends_as_listed
-/
import ChipEight.Proofs.Faults
import ChipEight.Proofs.FreshMachine
import Mathlib.Data.Int.ModEq

namespace ChipEight

open Interpreter (Operation)

/-! ### Rows of a listing -/

namespace Listing

/-- The word of a number is made of the two bytes in its place. -/
theorem getElem?_words {image : List UInt8} {i : Nat} {w : UInt16} :
    (words image)[i]? = some w ↔
      ∃ high low, image[2 * i]? = some high ∧ image[2 * i + 1]? = some low ∧
        w = bigEndian high low := by
  induction image using words.induct generalizing i with
  | case1 high low rest inductionHypothesis =>
      cases i with
      | zero => simp [words, eq_comm]
      | succ i => simp [words, Nat.mul_succ, inductionHypothesis]
  | case2 image short =>
      have single : image[2 * i + 1]? = none := by
        match image, short with
        | [], _ => rfl
        | [_], _ => simp
        | high :: low :: rest, short => exact absurd rfl (short high low rest)
      simp [words, single]

/-- The rows stand two cells apart. -/
theorem getElem?_rows (address : UInt16) (ws : List UInt16) (i : Nat) :
    (rows address ws)[i]? =
      ws[i]?.map fun w => ⟨address + 2 * UInt16.ofNat i, w, Instruction.decode w⟩ := by
  induction ws generalizing address i with
  | nil => rfl
  | cons w rest inductionHypothesis =>
      cases i with
      | zero =>
          have first : address + 2 * UInt16.ofNat 0 = address := UInt16.add_zero address
          simp only [rows, List.getElem?_cons_zero, Option.map_some, first]
      | succ i =>
          have next : address + 2 * UInt16.ofNat (i + 1) = address + 2 + 2 * UInt16.ofNat i := by
            rw [UInt16.ofNat_add, UInt16.mul_add, UInt16.add_assoc, UInt16.add_comm 2]
            rfl
          simp only [rows, List.getElem?_cons_succ, inductionHypothesis, next]

/-- A row shows the two bytes in its place, and what their word decodes to. -/
theorem getElem?_disassemble {image : List UInt8} {base : UInt16} {i : Nat} {row : Row} :
    (disassemble image base)[i]? = some row ↔
      ∃ high low, image[2 * i]? = some high ∧ image[2 * i + 1]? = some low ∧
        row = ⟨base + 2 * UInt16.ofNat i, bigEndian high low,
          Instruction.decode (bigEndian high low)⟩ := by
  rw [disassemble, getElem?_rows, Option.map_eq_some_iff]
  constructor
  · rintro ⟨w, found, rfl⟩
    obtain ⟨high, low, first, second, rfl⟩ := getElem?_words.mp found
    exact ⟨high, low, first, second, rfl⟩
  · rintro ⟨high, low, first, second, rfl⟩
    exact ⟨_, getElem?_words.mpr ⟨high, low, first, second, rfl⟩, rfl⟩

/-- The rows of a program are numbered by their places. -/
theorem address_of_disassemble {image : List UInt8} {i : Nat} {row : Row}
    (fits : image.length ≤ Machine.maxProgramSize)
    (listed : (disassemble image 0x200)[i]? = some row) : row.address.toNat = 0x200 + 2 * i := by
  obtain ⟨high, low, -, second, rfl⟩ := getElem?_disassemble.mp listed
  obtain ⟨inside, -⟩ := List.getElem?_eq_some_iff.mp second
  have short : 2 * i + 1 < 3584 := Nat.lt_of_lt_of_le inside fits
  have start : (0x200 : UInt16).toNat = 0x200 := rfl
  have two : (2 : UInt16).toNat = 2 := rfl
  rw [UInt16.toNat_add, UInt16.toNat_mul, UInt16.toNat_ofNat', start, two]
  omega

/-- A row says of a step at `pc` how it ends: an unknown word is a fault, and an instruction is
    executed, unless it waits for a key or is a call or a return that the open calls do not allow. -/
inductive Row.Foretells (row : Row) (pc : UInt16) : Outcome → Prop where
  | unknown (shown : row.instruction? = none) :
      Foretells row pc (.fault (.unknownOpcode row.word pc))
  | executed {i : Instruction} (shown : row.instruction? = some i) : Foretells row pc (.executed i)
  | waiting {x : Nibble} (shown : row.instruction? = some (.awaitKey x)) : Foretells row pc .waiting
  | stackOverflow {addr : Address} (shown : row.instruction? = some (.call addr)) :
      Foretells row pc (.fault (.stackOverflow pc))
  | stackUnderflow (shown : row.instruction? = some .ret) :
      Foretells row pc (.fault (.stackUnderflow pc))

end Listing

/-! ### Cells and rows -/

namespace Memory

/-- The two cells of a row hold the bytes of the program, which begins at 0x200. -/
def HoldsRow (m : Memory) (image : List UInt8) (i : Nat) : Prop :=
  m.cells[Machine.programStart + 2 * i]? = image[2 * i]? ∧
    m.cells[Machine.programStart + 2 * i + 1]? = image[2 * i + 1]?

instance (m : Memory) (image : List UInt8) (i : Nat) : Decidable (m.HoldsRow image i) :=
  inferInstanceAs (Decidable (_ ∧ _))

/-- An address reads the cell that it is congruent to. -/
theorem read_of_modEq (m : Memory) {address : UInt16} {k : Nat}
    (place : address.toNat ≡ k [MOD 4096]) (inside : k < 4096) : m.read address = m.cells[k] := by
  have same : cell address = ⟨k, inside⟩ := Fin.ext (Eq.trans place (Nat.mod_eq_of_lt inside))
  exact congrArg (fun cell : Address => m.cells[cell]) same

/-- Where the cells of a row hold the program, an address of the first one reads the word of the row. -/
theorem HoldsRow.readWord {m : Memory} {image : List UInt8} {base : UInt16} {i : Nat}
    {row : Listing.Row} (holds : m.HoldsRow image i)
    (listed : (Listing.disassemble image base)[i]? = some row) {address : UInt16}
    (place : address.toNat ≡ Machine.programStart + 2 * i [MOD 4096]) :
    m.readWord address = row.word := by
  obtain ⟨high, low, first, second, rfl⟩ := Listing.getElem?_disassemble.mp listed
  obtain ⟨holdsHigh, holdsLow⟩ := holds
  rw [first] at holdsHigh
  rw [second] at holdsLow
  obtain ⟨inside, holdsHigh⟩ := Vector.getElem?_eq_some_iff.mp holdsHigh
  obtain ⟨insideNext, holdsLow⟩ := Vector.getElem?_eq_some_iff.mp holdsLow
  have next : (address + 1).toNat ≡ Machine.programStart + 2 * i + 1 [MOD 4096] := by
    have one : (1 : UInt16).toNat = 1 := rfl
    unfold Nat.ModEq at place ⊢
    rw [UInt16.toNat_add, one]
    omega
  rw [Memory.readWord, m.read_of_modEq place inside, m.read_of_modEq next insideNext, holdsHigh,
    holdsLow]

end Memory

/-- A fresh machine holds every row of its program. -/
theorem Machine.holdsRow_fresh (font : Font) {image : List UInt8}
    (fits : image.length ≤ maxProgramSize) {base : UInt16} {i : Nat} {row : Listing.Row}
    (listed : (Listing.disassemble image base)[i]? = some row) :
    (fresh font image).memory.HoldsRow image i := by
  obtain ⟨high, low, first, second, -⟩ := Listing.getElem?_disassemble.mp listed
  have holds {k : Nat} {byte : UInt8} (found : image[k]? = some byte) :
      (fresh font image).memory.cells[programStart + k]? = image[k]? := by
    have inside : programStart + k < 4096 := by
      obtain ⟨short, -⟩ := List.getElem?_eq_some_iff.mp found
      exact Nat.add_lt_of_lt_sub' (Nat.lt_of_lt_of_le short fits)
    rw [Vector.getElem?_eq_getElem inside, getElem_fresh _ _ inside,
      if_pos (Nat.le_add_right _ _), Nat.add_sub_cancel_left, found]
    rfl
  exact ⟨holds first, holds second⟩

/-! ### What writes memory -/

/-- The instruction writes memory. -/
def Instruction.stores : Instruction → Bool
  | .storeDecimal _ | .storeRegisters _ => true
  | _ => false

/-- An instruction that writes memory was executed. -/
def Outcome.stores : Outcome → Bool
  | .executed i => i.stores
  | _ => false

def Turn.stores (t : Turn) : Bool :=
  match t.outcome? with
  | some outcome => outcome.stores
  | none => false

namespace Machine

variable {m m' : Machine} {d : Dialect} {noise : UInt8} {i : Instruction} {flow : Flow}

/-- The part of the machine that the program itself is in: an instruction leaves the fetched word
    alone, and memory too unless it is one of the two that store. -/
structure ProgramFrame (m : Machine) (i : Instruction) (m' : Machine) : Prop where
  opcode : m'.opcode = m.opcode
  memory : i.stores = false → m'.memory = m.memory

/-- Every instruction that is carried out keeps to this frame. -/
theorem programFrame_of_carryOut (carried : m.carryOut d noise i = .ok (flow, m')) :
    m.ProgramFrame i m' := by
  cases i with
  | ret =>
      obtain ⟨caller, rest, -, -, rfl⟩ := carryOut_ret carried
      exact ⟨rfl, fun _ => rfl⟩
  | call addr =>
      rw [carryOut] at carried
      split at carried <;> cases carried
      exact ⟨rfl, fun _ => rfl⟩
  | combine op x y =>
      obtain ⟨registers, same⟩ := m.combine_frame d op x y
      rw [carryOut, same] at carried
      cases carried
      exact ⟨rfl, fun _ => rfl⟩
  | loadRegisters x =>
      obtain ⟨registers, index, same⟩ := m.loadRegisters_frame d x
      rw [carryOut, same] at carried
      cases carried
      exact ⟨rfl, fun _ => rfl⟩
  | awaitKey x =>
      rcases m.awaitKey_frame x with ⟨registers, looked⟩ | ⟨held, looked⟩
      all_goals
        rw [carryOut, looked] at carried
        cases carried
        exact ⟨rfl, fun _ => rfl⟩
  | storeDecimal | storeRegisters =>
      cases carried
      exact ⟨rfl, fun unstored => absurd unstored Bool.true_eq_false.mp⟩
  | _ =>
      cases carried
      exact ⟨rfl, fun _ => rfl⟩

end Machine

namespace Interpreter

variable {c c' e : Interpreter} {outcome : Outcome} {operation : Operation}

/-- An execution leaves the fetched word alone, and memory too unless it stores. -/
theorem programFrame_of_execute (ran : c.execute = (outcome, c')) :
    c'.machine.opcode = c.machine.opcode ∧
      (outcome.stores = false → c'.machine.memory = c.machine.memory) := by
  cases executes_of_execute ran with
  | unknown | refused => exact ⟨rfl, fun _ => rfl⟩
  | @carried i flow m decoded carried =>
      have frame := Machine.programFrame_of_carryOut carried
      refine ⟨frame.opcode, fun unstored => frame.memory ?_⟩
      cases flow with
      | stay =>
          obtain ⟨x, rfl⟩ := Machine.awaitKey_of_stay carried
          rfl
      | next | skip | jump => exact unstored

theorem memory_respond_of_unstored (kept : operation.restarts = false)
    (unloaded : operation.loads = false) (unstored : (c.turn operation).stores = false) :
    (c.respond operation).2.machine.memory = c.machine.memory := by
  cases primed : c.primed? operation with
  | none => exact memory_respond primed kept unloaded
  | some e =>
      have same : e.machine.memory = c.machine.memory := by
        obtain ⟨opcode, rfl⟩ := eq_of_primed primed
        rfl
      rw [Turn.stores, outcome?_of_primed primed] at unstored
      rw [respond_of_primed primed, ← same]
      exact (programFrame_of_execute rfl).2 unstored

/-- Memory stays as it is through a session that executes nothing that stores, restarts nothing and
    loads nothing. -/
theorem memory_after {operations : List Operation}
    (quiet : ∀ operation ∈ operations, operation.restarts = false ∧ operation.loads = false)
    (unstored : ∀ t ∈ c.turns operations, t.stores = false) :
    (c.after operations).machine.memory = c.machine.memory := by
  induction operations generalizing c with
  | nil => rfl
  | cons operation rest inductionHypothesis =>
      obtain ⟨kept, unloaded⟩ := quiet operation List.mem_cons_self
      have first := memory_respond_of_unstored kept unloaded (unstored _ List.mem_cons_self)
      have others := inductionHypothesis (c := (c.respond operation).2)
        (fun next member => quiet next (List.mem_cons_of_mem _ member))
        (fun t member => unstored t (List.mem_cons_of_mem _ member))
      exact others.trans first

/-! ### Steps at a row -/

/-- A step that fetches the word of a row ends as the row says. -/
theorem foretells_step {row : Listing.Row} (shown : row.instruction? = Instruction.decode row.word)
    (fetched : c.fetch.machine.opcode = row.word) : row.Foretells c.machine.pc c.step.1 := by
  rw [← fetched] at shown
  generalize ran : c.fetch.execute = result
  obtain ⟨outcome, c'⟩ := result
  rw [step, ran]
  cases executes_of_execute ran with
  | unknown undecoded =>
      rw [fetched]
      exact .unknown (shown.trans undecoded)
  | refused decoded error =>
      rcases Machine.carryOut_eq_error_iff.mp error with
        ⟨⟨addr, rfl⟩, -, rfl⟩ | ⟨rfl, -, rfl⟩
      · exact .stackOverflow (shown.trans decoded)
      · exact .stackUnderflow (shown.trans decoded)
  | @carried i flow m decoded carried =>
      cases flow with
      | stay =>
          obtain ⟨x, rfl⟩ := Machine.awaitKey_of_stay carried
          exact .waiting (shown.trans decoded)
      | next | skip | jump => exact .executed (shown.trans decoded)

/-- The interpreter runs what the listing of its program shows. Wherever a session has led: if the
    program counter means the place of a row, modulo the size of memory, and the two cells of the row
    still hold the bytes of the program, then a step fetches the word of the row and ends as the row
    says. And in a session that executes nothing that stores, restarts nothing and loads nothing, they
    do hold them, for every row. -/
theorem step_ends_as_listed {setup : Setup} {entropy : Cipher.Key} (built : setup.build entropy = .ok c)
    {i : Nat} {row : Listing.Row}
    (listed : (Listing.disassemble setup.program 0x200)[i]? = some row) (history : List Operation) :
    row.address.toNat = 0x200 + 2 * i ∧
    ((c.after history).machine.pc.toNat ≡ 0x200 + 2 * i [MOD 4096] →
      (c.after history).machine.memory.HoldsRow setup.program i →
        (c.after history).fetch.machine.opcode = row.word ∧
        (c.after history).step.2.machine.opcode = row.word ∧
        row.Foretells (c.after history).machine.pc (c.after history).step.1) ∧
    ((∀ operation ∈ history, operation.restarts = false ∧ operation.loads = false) →
      (∀ t ∈ c.turns history, t.stores = false) →
        (c.after history).machine.memory.HoldsRow setup.program i) := by
  obtain ⟨high, low, -, -, shown⟩ := Listing.getElem?_disassemble.mp listed
  have decodes : row.instruction? = Instruction.decode row.word := by rw [shown]
  obtain ⟨made, -, -, -⟩ := Setup.build_eq_ok built
  have fits := (Setup.machine_eq_ok made).1
  refine ⟨Listing.address_of_disassemble fits listed, fun place holds => ?_,
    fun quiet unstored => ?_⟩
  · have fetched : (c.after history).fetch.machine.opcode = row.word := holds.readWord listed place
    refine ⟨fetched, ?_, foretells_step decodes fetched⟩
    exact (programFrame_of_execute (c := (c.after history).fetch) rfl).1.trans fetched
  · rw [memory_after quiet unstored, Setup.machine_eq_fresh made]
    exact Machine.holdsRow_fresh _ fits listed

/-- A program that jumps over an unknown word to a wait for a key. -/
def keyProgram : List UInt8 := [0x12, 0x04, 0xFF, 0xFF, 0xF0, 0x0A]

/-- A program of two other words is loaded over it, and its jump leads to the wait, which is still in
    memory and ends as its row says; and without the load the unknown word is still there as well. -/
theorem step_ends_as_listed_behindLoad :
    (Listing.Row.mk 0x204 0xF00A (some (.awaitKey 0))).Foretells 0x204
        ((ofProgram keyProgram).after [.machine (.loadProgram [0x12, 0x04, 0x00, 0xE0]), .step]).step.1 ∧
      ((ofProgram keyProgram).after [.step, .tick, .step]).machine.memory.HoldsRow keyProgram 1 := by
  have built := build_ofProgram keyProgram (Vector.replicate 8 0) (by decide)
  constructor
  · have listed : (Listing.disassemble keyProgram 0x200)[2]? =
        some ⟨0x204, 0xF00A, some (.awaitKey 0)⟩ := by decide
    obtain ⟨-, runs, -⟩ := step_ends_as_listed built listed
      [.machine (.loadProgram [0x12, 0x04, 0x00, 0xE0]), .step]
    obtain ⟨place, holds, pc⟩ :
        ((ofProgram keyProgram).after
          [.machine (.loadProgram [0x12, 0x04, 0x00, 0xE0]), .step]).machine.pc.toNat ≡
            0x200 + 2 * 2 [MOD 4096] ∧
        ((ofProgram keyProgram).after
          [.machine (.loadProgram [0x12, 0x04, 0x00, 0xE0]), .step]).machine.memory.HoldsRow
            keyProgram 2 ∧
        ((ofProgram keyProgram).after
          [.machine (.loadProgram [0x12, 0x04, 0x00, 0xE0]), .step]).machine.pc = 0x204 := by
      decide +kernel
    have foretold := (runs place holds).2.2
    rw [pc] at foretold
    exact foretold
  · have listed : (Listing.disassemble keyProgram 0x200)[1]? = some ⟨0x202, 0xFFFF, none⟩ := by
      decide
    obtain ⟨-, -, stays⟩ := step_ends_as_listed built listed [.step, .tick, .step]
    exact stays (by decide) (by decide +kernel)

end Interpreter

end ChipEight
