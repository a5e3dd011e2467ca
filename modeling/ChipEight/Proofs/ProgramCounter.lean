/-
Module: ChipEight.Proofs.ProgramCounter
Purpose: Where the program counter can be. It has sixteen bits, and nothing cuts it to the twelve that
  an address counts with, so that a run may pass the end of memory and reach any of its values; what
  is fetched there are the two cells that the places mean. A run stays at places where a whole word
  stands as long as no step leads past the last of them, and calls and returns keep to that too.
Main exports: Outcome.destination, Machine.WithinMemory, Interpreter.toNat_pc_of_execute,
  Interpreter.atFetch, Interpreter.within_iff_destinations, Interpreter.Barren,
  Interpreter.exists_atFetch_of_barren, Interpreter.exists_built_atFetch,
  Interpreter.program_counter_stays_below_end_iff
-/
import ChipEight.Proofs.FreshMachine

namespace ChipEight

/-- The last place of a word whose two bytes stand next to each other in memory. -/
def Memory.lastWord : Nat := size - 2

/-- The place that an outcome leads to, as a number of any size: the program counter is what sixteen
    bits hold of it. -/
def Outcome.destination (m : Machine) (d : Dialect) : Outcome → Nat
  | .executed (.jump addr) | .executed (.call addr) => addr
  | .executed (.jumpOffset addr) => addr + (m.register (Machine.offsetRegister d addr)).toNat
  | .executed .ret => (m.stack.headD 0).toNat + 2
  | .executed (.skipIf condition) => m.pc.toNat + if condition.holds m then 4 else 2
  | .waiting => m.pc.toNat
  | .executed _ | .fault _ => m.pc.toNat + 2

/-- The program is at a place of a whole word, and so were all calls that have not returned. -/
structure Machine.WithinMemory (m : Machine) : Prop where
  pc : m.pc.toNat ≤ Memory.lastWord
  calls : ∀ caller ∈ m.stack, caller.toNat ≤ Memory.lastWord

namespace Outcome

/-- Within memory no step leads out of the sixteen bits. -/
theorem destination_lt {m : Machine} (within : m.WithinMemory) (outcome : Outcome) (d : Dialect) :
    outcome.destination m d < 65536 := by
  have last : Memory.lastWord = 4094 := rfl
  have place := within.pc
  have next : m.pc.toNat + 2 < 65536 := by omega
  cases outcome with
  | executed i =>
      cases i with
      | jump addr | call addr =>
          show addr.val < 65536
          omega
      | jumpOffset addr =>
          have offset := (m.register (Machine.offsetRegister d addr)).toNat_lt
          show addr.val + (m.register (Machine.offsetRegister d addr)).toNat < 65536
          omega
      | ret =>
          have caller : (m.stack.headD 0).toNat ≤ Memory.lastWord := by
            cases opened : m.stack with
            | nil => exact Nat.zero_le _
            | cons caller rest => exact within.calls caller (by simp [opened])
          show (m.stack.headD 0).toNat + 2 < 65536
          omega
      | skipIf condition =>
          show m.pc.toNat + (if condition.holds m then 4 else 2) < 65536
          split <;> omega
      | _ => exact next
  | waiting => exact m.pc.toNat_lt
  | fault => exact next

end Outcome

/-! ### One step -/

namespace Flow

/-- A skip instruction is executed, whether it skips or not. -/
theorem outcome_skipIf (skips : Bool) (i : Instruction) :
    (skipIf skips).outcome i = .executed i := by
  cases skips <;> rfl

theorem toNat_target_skipIf (skips : Bool) (pc : UInt16) :
    ((skipIf skips).target pc).toNat = (pc.toNat + if skips then 4 else 2) % 65536 := by
  cases skips with
  | true => exact UInt16.toNat_add pc 4
  | false => exact UInt16.toNat_add pc 2

end Flow

namespace Machine

variable {m m' : Machine} {d : Dialect} {noise : UInt8} {i : Instruction} {flow : Flow}

/-- The flow of an instruction leads to its destination. -/
theorem toNat_target (carried : m.carryOut d noise i = .ok (flow, m')) :
    (flow.target m.pc).toNat = (flow.outcome i).destination m d % 65536 := by
  cases i with
  | jump addr =>
      cases carried
      exact UInt16.toNat_ofNat'
  | call addr =>
      rw [carryOut] at carried
      split at carried <;> cases carried
      exact UInt16.toNat_ofNat'
  | jumpOffset addr =>
      cases carried
      show (UInt16.ofNat addr + (m.register (offsetRegister d addr)).toUInt16).toNat = _
      rw [UInt16.toNat_add, UInt16.toNat_ofNat', UInt8.toNat_toUInt16, Nat.mod_add_mod]
      rfl
  | ret =>
      obtain ⟨caller, rest, opened, rfl, rfl⟩ := carryOut_ret carried
      show (caller + 2).toNat = ((m.stack.headD 0).toNat + 2) % 65536
      rw [opened]
      exact UInt16.toNat_add caller 2
  | skipIf condition =>
      cases carried
      rw [Flow.outcome_skipIf]
      exact Flow.toNat_target_skipIf _ _
  | awaitKey x =>
      rcases m.awaitKey_frame x with ⟨registers, looked⟩ | ⟨held, looked⟩
      · rw [carryOut, looked] at carried
        cases carried
        exact UInt16.toNat_add m.pc 2
      · rw [carryOut, looked] at carried
        cases carried
        exact (Nat.mod_eq_of_lt m.pc.toNat_lt).symm
  | _ =>
      cases carried
      exact UInt16.toNat_add m.pc 2

end Machine

namespace Interpreter

variable {c c' : Interpreter} {outcome : Outcome}

/-- An execution leads to the destination of its outcome, as far as sixteen bits can hold it. -/
theorem toNat_pc_of_execute (ran : c.execute = (outcome, c')) :
    c'.machine.pc.toNat = outcome.destination c.machine c.dialect % 65536 := by
  cases executes_of_execute ran with
  | unknown | refused => exact UInt16.toNat_add c.machine.pc 2
  | carried decoded carried => exact Machine.toNat_target carried

/-- The place that the next step leads to. -/
def destination (c : Interpreter) : Nat := c.step.1.destination c.machine c.dialect

theorem toNat_pc_step (c : Interpreter) :
    c.step.2.machine.pc.toNat = c.destination % 65536 :=
  toNat_pc_of_execute (c := c.fetch) rfl

/-! ### A run within memory -/

/-- The interpreter before its fetch number `n`, counted from zero. -/
def atFetch (c : Interpreter) (n : Nat) : Interpreter := (c.steps n).2

theorem atFetch_step (c : Interpreter) (n : Nat) : c.atFetch (n + 1) = c.step.2.atFetch n := rfl

theorem atFetch_succ (c : Interpreter) (n : Nat) : c.atFetch (n + 1) = (c.atFetch n).step.2 := by
  induction n generalizing c with
  | zero => rfl
  | succ n inductionHypothesis => exact inductionHypothesis c.step.2

/-- Nothing remembers a place but a call, and it remembers its own. -/
theorem calls_step (within : c.machine.WithinMemory) :
    ∀ caller ∈ c.step.2.machine.stack, caller.toNat ≤ Memory.lastWord := by
  have opened : c.step.2.machine.stack = c.step.1.openAfter c.machine.pc c.machine.stack :=
    stack_of_execute (c := c.fetch) rfl
  rw [opened]
  cases c.step.1 with
  | executed i =>
      cases i with
      | call addr => exact List.forall_mem_cons.mpr ⟨within.pc, within.calls⟩
      | ret => exact fun caller member => within.calls caller (List.mem_of_mem_tail member)
      | _ => exact within.calls
  | waiting | fault => exact within.calls

theorem within_atFetch (start : c.machine.WithinMemory) {n : Nat}
    (places : ∀ k ≤ n, (c.atFetch k).machine.pc.toNat ≤ Memory.lastWord) :
    (c.atFetch n).machine.WithinMemory := by
  induction n with
  | zero => exact start
  | succ n inductionHypothesis =>
      have before := inductionHypothesis fun k upTo => places k (Nat.le_succ_of_le upTo)
      refine ⟨places (n + 1) (Nat.le_refl _), ?_⟩
      rw [atFetch_succ]
      exact calls_step before

/-- A run stays at places of whole words exactly as long as no step leads past the last of them. -/
theorem within_iff_destinations (start : c.machine.WithinMemory) (n : Nat) :
    (∀ k ≤ n, (c.atFetch k).machine.pc.toNat ≤ Memory.lastWord) ↔
      ∀ k < n, (c.atFetch k).destination ≤ Memory.lastWord := by
  constructor
  · intro places k before
    have within := within_atFetch start fun l upTo => places l (Nat.le_trans upTo before.le)
    -- Within memory nothing is lost of a destination, so the place after the step tells it.
    have small : (c.atFetch k).destination < 65536 := Outcome.destination_lt within _ _
    have next := places (k + 1) before
    rw [atFetch_succ, toNat_pc_step, Nat.mod_eq_of_lt small] at next
    exact next
  · intro below k upTo
    cases k with
    | zero => exact start.pc
    | succ k =>
        rw [atFetch_succ, toNat_pc_step]
        exact (Nat.mod_le _ _).trans (below k upTo)

/-! ### Runs through all of the sixteen bits -/

/-- At every second place from the program counter on, all around the sixteen bits, stands a word
    that is no instruction. -/
def Barren (m : Machine) : Prop :=
  ∀ place : UInt16, place.toNat % 2 = m.pc.toNat % 2 →
    Instruction.decode (m.memory.readWord place) = none

/-- A word that is no instruction is passed over, and is all that a step changes. -/
theorem step_of_unknown
    (unknown : Instruction.decode (c.machine.memory.readWord c.machine.pc) = none) :
    c.step.2.machine = { c.machine.fetch with pc := c.machine.pc + 2 } := by
  have fetched : c.fetch.machine.opcode = c.machine.memory.readWord c.machine.pc := rfl
  rw [step, execute, fetched, unknown]
  rfl

/-- A jump leads to its address, and that is all that a step changes. -/
theorem step_of_jump {addr : Address}
    (jumps : Instruction.decode (c.machine.memory.readWord c.machine.pc) = some (.jump addr)) :
    c.step.2.machine = { c.machine.fetch with pc := UInt16.ofNat addr } := by
  have fetched : c.fetch.machine.opcode = c.machine.memory.readWord c.machine.pc := rfl
  rw [step, execute, fetched, jumps]
  rfl

theorem Barren.step (barren : Barren c.machine) : Barren c.step.2.machine := by
  have two : (2 : UInt16).toNat = 2 := rfl
  rw [step_of_unknown (barren _ rfl)]
  intro place parity
  apply barren place
  rw [parity, UInt16.toNat_add, two]
  omega

/-- Through barren memory a run goes on forever, two places at a time. -/
theorem pc_of_barren (barren : Barren c.machine) (n : Nat) :
    (c.atFetch n).machine.pc = c.machine.pc + 2 * UInt16.ofNat n := by
  induction n generalizing c with
  | zero => exact (UInt16.add_zero _).symm
  | succ n inductionHypothesis =>
      rw [atFetch_step, inductionHypothesis barren.step, step_of_unknown (barren _ rfl),
        UInt16.ofNat_add, UInt16.mul_add, UInt16.add_comm (2 * _), ← UInt16.add_assoc]
      rfl

/-- So it comes to every place of the same parity. -/
theorem exists_atFetch_of_barren (barren : Barren c.machine) {place : UInt16}
    (parity : place.toNat % 2 = c.machine.pc.toNat % 2) :
    ∃ n, (c.atFetch n).machine.pc = place := by
  refine ⟨(place.toNat + 65536 - c.machine.pc.toNat) / 2, ?_⟩
  have two : (2 : UInt16).toNat = 2 := rfl
  have placeSmall := place.toNat_lt
  have pcSmall := c.machine.pc.toNat_lt
  rw [pc_of_barren barren]
  apply UInt16.toNat.inj
  rw [UInt16.toNat_add, UInt16.toNat_mul, UInt16.toNat_ofNat', two]
  omega

/-- The interpreter of a program, with a font of zeros. -/
def blank (program : List UInt8) : Interpreter where
  machine := Machine.fresh (Vector.replicate 80 0) program
  dialect := {}
  generator := Generator.seeded 0
  program := program
  faults := 0

theorem built_blank {program : List UInt8} (fits : program.length ≤ Machine.maxProgramSize) :
    (blank program).Built := by
  let setup : Setup := { program, font? := some (List.replicate 80 0), seed? := some 0 }
  have loaded : Machine.initial.loadFont (List.replicate 80 0) =
      .ok (Machine.withFont (Vector.replicate 80 0)) := by
    have sized : (List.replicate 80 (0 : UInt8)).length = 80 := List.length_replicate
    obtain ⟨font, bytes, loaded⟩ := Machine.initial.loadFont_of_sized sized
    have zeros : font = Vector.replicate 80 0 := Vector.toList_inj.mp bytes
    rw [loaded, Machine.initial, ← Machine.fresh_nil, Machine.refont_fresh, zeros,
      Machine.fresh_nil]
  have made : setup.machine = .ok (blank program).machine := by
    rw [Setup.machine]
    simp only [setup, loaded]
    exact Machine.loadProgram_of_fits _ fits
  refine ⟨setup, Vector.replicate 8 0, ?_⟩
  rw [Setup.build, made]
  rfl

/-- An address reads the program from 0x200 on, and zeros elsewhere. -/
theorem read_blank (program : List UInt8) (address : UInt16) :
    (blank program).machine.memory.read address =
      if 0x200 ≤ address.toNat % 4096 then program[address.toNat % 4096 - 0x200]?.getD 0 else 0 := by
  have cells := Machine.getElem_fresh (Vector.replicate 80 0) program
    (mod_address_lt address.toNat)
  simp only [Vector.getElem_replicate, dite_eq_ite, ite_self] at cells
  exact cells

/-- Without a program all of memory is barren. -/
theorem barren_blank_nil : Barren (blank []).machine := by
  intro place _
  have zero (address : UInt16) : (blank []).machine.memory.read address = 0 := by
    rw [read_blank, List.getElem?_nil, Option.getD_none, ite_self]
  rw [Memory.readWord, zero, zero]
  decide

/-- A program that jumps to the second byte of its jump. -/
def intoItself : List UInt8 := [0x12, 0x01]

theorem read_blank_intoItself (address : UInt16) :
    (blank intoItself).machine.memory.read address =
      if address.toNat % 4096 = 0x200 then 0x12
      else if address.toNat % 4096 = 0x201 then 0x01 else 0 := by
  rw [read_blank, intoItself]
  by_cases first : address.toNat % 4096 = 0x200
  · rw [first]
    rfl
  · by_cases second : address.toNat % 4096 = 0x201
    · rw [second]
      rfl
    · rw [if_neg first, if_neg second]
      split
      · rw [List.getElem?_eq_none (by simp; omega), Option.getD_none]
      · rfl

theorem step_intoItself : (blank intoItself).step.2.machine =
    { (blank intoItself).machine.fetch with pc := 0x201 } := by
  have jumps : Instruction.decode ((blank intoItself).machine.memory.readWord
      (blank intoItself).machine.pc) = some (.jump 0x201) := by
    have start : (blank intoItself).machine.pc = 0x200 := rfl
    have next : (0x200 : UInt16) + 1 = 0x201 := rfl
    rw [start, Memory.readWord, next, read_blank_intoItself, read_blank_intoItself]
    decide
  exact step_of_jump jumps

/-- Behind its jump that program finds nothing but words that are no instructions. -/
theorem barren_step_intoItself : Barren (blank intoItself).step.2.machine := by
  rw [step_intoItself]
  intro place odd
  change place.toNat % 2 = 1 at odd
  have next : (place + 1).toNat = (place.toNat + 1) % 65536 := UInt16.toNat_add place 1
  -- An odd place has a zero or the second byte of the jump, and behind it a zero or the first one.
  have high : (blank intoItself).machine.memory.read place = 0 ∨
      (blank intoItself).machine.memory.read place = 0x01 := by
    have notFirst : place.toNat % 4096 ≠ 0x200 := by omega
    rw [read_blank_intoItself, if_neg notFirst]
    split
    · exact .inr rfl
    · exact .inl rfl
  have low : (blank intoItself).machine.memory.read (place + 1) = 0 ∨
      (blank intoItself).machine.memory.read (place + 1) = 0x12 := by
    have notSecond : (place + 1).toNat % 4096 ≠ 0x201 := by omega
    rw [read_blank_intoItself, if_neg notSecond]
    split
    · exact .inr rfl
    · exact .inl rfl
  show Instruction.decode ((blank intoItself).machine.memory.readWord place) = none
  rw [Memory.readWord]
  rcases high with high | high <;> rcases low with low | low <;> rw [high, low] <;> decide

/-- No place is out of reach: each of the sixteen bit numbers is the program counter before some
    fetch of some build. -/
theorem exists_built_atFetch (place : UInt16) :
    ∃ c : Interpreter, c.Built ∧ ∃ n, (c.atFetch n).machine.pc = place := by
  rcases Nat.mod_two_eq_zero_or_one place.toNat with even | odd
  · exact ⟨blank [], built_blank (by decide), exists_atFetch_of_barren barren_blank_nil
      (even.trans (by decide))⟩
  · have parity : place.toNat % 2 = (blank intoItself).step.2.machine.pc.toNat % 2 := by
      rw [step_intoItself]
      exact odd
    obtain ⟨n, reached⟩ := exists_atFetch_of_barren barren_step_intoItself parity
    rw [← atFetch_step] at reached
    exact ⟨blank intoItself, built_blank (by decide), n + 1, reached⟩

/-! ### The end of memory -/

/-- The word that a fetch reads is made of the two cells that the places mean, the second of them
    the first cell of memory if the first is the last. -/
theorem opcode_fetch (c : Interpreter) :
    c.fetch.machine.opcode =
      bigEndian (c.machine.memory.cells.get (lowAddress c.machine.pc.toNat))
        (c.machine.memory.cells.get (lowAddress (c.machine.pc.toNat + 1))) := by
  have second := c.machine.memory.read_add c.machine.pc 1
  show bigEndian (c.machine.memory.read c.machine.pc) (c.machine.memory.read (c.machine.pc + 1)) = _
  rw [show c.machine.pc + 1 = c.machine.pc + UInt16.ofNat 1 from rfl, second]
  rfl

/-- A fresh interpreter is at the start of its program, and no call is open. -/
theorem Built.withinMemory (built : c.Built) : c.machine.WithinMemory := by
  obtain ⟨memory, font, initial⟩ := built.machine_eq
  have start : Machine.initial.pc.toNat ≤ Memory.lastWord := by decide
  rw [initial]
  exact ⟨start, List.forall_mem_nil _⟩

/-- The program counter and the end of memory. A fetch reads the two cells that its place and the
    next one mean modulo the size of memory. A run from a build stays at places of whole words
    exactly as long as no step leads past the last of them; and not all runs do: every number of
    sixteen bits is the place of some fetch of some build. -/
theorem program_counter_stays_below_end_iff (built : c.Built) (n : Nat) :
    (c.atFetch n).fetch.machine.opcode =
      bigEndian ((c.atFetch n).machine.memory.cells.get (lowAddress (c.atFetch n).machine.pc.toNat))
        ((c.atFetch n).machine.memory.cells.get
          (lowAddress ((c.atFetch n).machine.pc.toNat + 1))) ∧
    ((∀ k ≤ n, (c.atFetch k).machine.pc.toNat ≤ Memory.lastWord) ↔
      ∀ k < n, (c.atFetch k).destination ≤ Memory.lastWord) ∧
    ∀ place : UInt16, ∃ c : Interpreter, c.Built ∧ ∃ n, (c.atFetch n).machine.pc = place :=
  ⟨opcode_fetch _, within_iff_destinations built.withinMemory n, exists_built_atFetch⟩

/-- A program that jumps to the last word of memory. -/
def toLastWord : List UInt8 := [0x1F, 0xFE]

/-- At the last word, where two zeros are fetched, the run is still within memory. -/
theorem program_counter_stays_below_end_iff_toLastWord :
    ((ofProgram toLastWord).atFetch 1).fetch.machine.opcode = 0x0000 ∧
      ∀ k ≤ 1, ((ofProgram toLastWord).atFetch k).machine.pc.toNat ≤ Memory.lastWord := by
  have built : (ofProgram toLastWord).Built := built_ofProgram (by decide)
  obtain ⟨reads, within, -⟩ := program_counter_stays_below_end_iff built 1
  refine ⟨?_, within.mpr (by decide +kernel)⟩
  rw [reads]
  decide +kernel

/-- The word there is no instruction and is passed over, and so the next fetch is behind the end. -/
theorem program_counter_passes_end : (ofProgram toLastWord).Built ∧
    ¬ ∀ n, ((ofProgram toLastWord).atFetch n).machine.pc.toNat ≤ 4094 := by
  refine ⟨built_ofProgram (by decide), fun bounded => ?_⟩
  have passed : ((ofProgram toLastWord).atFetch 2).machine.pc = 4096 := by decide +kernel
  have third := bounded 2
  rw [passed] at third
  exact absurd third (by decide)

end Interpreter

end ChipEight
