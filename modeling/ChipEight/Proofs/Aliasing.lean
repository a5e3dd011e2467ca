/-
Module: ChipEight.Proofs.Aliasing
Purpose: The four high bits of an address never matter. Addresses are kept with sixteen bits and mean a
  cell by the twelve low ones, so a machine may be moved to other addresses of the same cells: its
  program counter and its open calls, and I as well as long as nothing is added to it. Two
  interpreters that differ in this way alone go through every session side by side: each operation
  is answered alike and leaves them as far apart as they were.
Main exports: SameCell, Lenient, Machine.Alias, Machine.Alias.carryOut, Interpreter.Alias,
  Interpreter.Alias.respond, Interpreter.SideBySide, Interpreter.Alias.session
-/
import ChipEight.Proofs.Invariant
import Mathlib.Data.Int.ModEq
import Mathlib.Data.List.Forall2

namespace ChipEight

open Interpreter (Operation)

/-! ### Addresses of one cell -/

/-- The addresses agree in the twelve bits that they count with. -/
def SameCell (a b : UInt16) : Prop := a.toNat ≡ b.toNat [MOD 4096]

instance (a b : UInt16) : Decidable (SameCell a b) := inferInstanceAs (Decidable (_ ≡ _ [MOD _]))

namespace SameCell

variable {a b : UInt16}

theorem refl (a : UInt16) : SameCell a a := Nat.ModEq.refl _

/-- Addresses of one cell stay so when they move on together: sixteen bits wrap at a multiple of the
    size of memory. -/
theorem add (same : SameCell a b) (k : UInt16) : SameCell (a + k) (b + k) := by
  unfold SameCell Nat.ModEq at *
  rw [UInt16.toNat_add, UInt16.toNat_add]
  omega

theorem cell_eq (same : SameCell a b) : Memory.cell a = Memory.cell b := Fin.ext same

theorem read_eq (same : SameCell a b) (m : Memory) : m.read a = m.read b :=
  congrArg (fun cell : Address => m.cells[cell]) same.cell_eq

theorem write_eq (same : SameCell a b) (m : Memory) (byte : UInt8) :
    m.write a byte = m.write b byte :=
  congrArg (fun cell : Address => (⟨m.cells.set cell byte⟩ : Memory)) same.cell_eq

theorem readWord_eq (same : SameCell a b) (m : Memory) : m.readWord a = m.readWord b := by
  rw [Memory.readWord, Memory.readWord, same.read_eq, (same.add 1).read_eq]

/-- A sprite is read from the cells alone. -/
theorem pixels_eq (same : SameCell a b) (m : Memory) (height : Nat) (wraps : Bool) (x y : UInt8) :
    Sprite.pixels m a height wraps x y = Sprite.pixels m b height wraps x y := by
  simp only [Sprite.pixels, fun r => (same.add (UInt16.ofNat r)).read_eq m]

end SameCell

/-- How far two index registers may be apart, so that they mean the same cells and stay so when they
    move on together. -/
structure Lenient (R : UInt16 → UInt16 → Prop) : Prop where
  refl : ∀ a, R a a
  add : ∀ {a b}, R a b → ∀ k, R (a + k) (b + k)
  sameCell : ∀ {a b}, R a b → SameCell a b

theorem lenient_eq : Lenient Eq where
  refl _ := rfl
  add same _ := by rw [same]
  sameCell same := same ▸ SameCell.refl _

theorem lenient_sameCell : Lenient SameCell where
  refl := SameCell.refl
  add same := same.add
  sameCell same := same

/-! ### Outcomes and flows -/

/-- The same fault, at addresses of one cell. -/
inductive Fault.Alias : Fault → Fault → Prop where
  | unknownOpcode (opcode : UInt16) {a b : UInt16} (same : SameCell a b) :
      Alias (.unknownOpcode opcode a) (.unknownOpcode opcode b)
  | stackOverflow {a b : UInt16} (same : SameCell a b) : Alias (.stackOverflow a) (.stackOverflow b)
  | stackUnderflow {a b : UInt16} (same : SameCell a b) :
      Alias (.stackUnderflow a) (.stackUnderflow b)

/-- The same instruction was executed, or both wait, or the same fault occurred. -/
inductive Outcome.Alias : Outcome → Outcome → Prop where
  | executed (i : Instruction) : Alias (.executed i) (.executed i)
  | waiting : Alias .waiting .waiting
  | fault {f f' : Fault} (alike : f.Alias f') : Alias (.fault f) (.fault f')

/-- Control goes the same way, to addresses of one cell if it jumps. -/
inductive Flow.Alias : Flow → Flow → Prop where
  | same (flow : Flow) : Alias flow flow
  | jump {a b : UInt16} (same : SameCell a b) : Alias (.jump a) (.jump b)

namespace Flow.Alias

variable {flow flow' : Flow} {pc pc' : UInt16}

theorem target (alike : flow.Alias flow') (same : SameCell pc pc') :
    SameCell (flow.target pc) (flow'.target pc') := by
  cases alike with
  | jump moved => exact moved
  | same flow =>
      cases flow with
      | next => exact same.add 2
      | skip => exact same.add 4
      | jump address => exact .refl address
      | stay => exact same

theorem outcome (alike : flow.Alias flow') (i : Instruction) :
    (flow.outcome i).Alias (flow'.outcome i) := by
  cases alike with
  | jump moved => exact .executed i
  | same flow =>
      cases flow with
      | stay => exact .waiting
      | next | skip | jump => exact .executed i

end Flow.Alias

/-! ### Machines -/

namespace Machine

variable {R : UInt16 → UInt16 → Prop} {m m' : Machine} {d : Dialect} {noise : UInt8}
  {i : Instruction} {pc index : UInt16} {stack : List UInt16}

/-- The machine at other addresses. -/
def readdress (m : Machine) (pc : UInt16) (stack : List UInt16) (index : UInt16) : Machine :=
  { m with pc, stack, index }

/-- The machines agree in everything but addresses: program counters and open calls mean the same
    cells, and the index registers are no further apart than `R` allows. -/
inductive Alias (R : UInt16 → UInt16 → Prop) (m : Machine) : Machine → Prop where
  | moved {pc : UInt16} {stack : List UInt16} {index : UInt16} (samePc : SameCell m.pc pc)
      (sameStack : List.Forall₂ SameCell m.stack stack) (sameIndex : R m.index index) :
      Alias R m (m.readdress pc stack index)

theorem Alias.refl (lenient : Lenient R) (m : Machine) : m.Alias R m :=
  .moved (.refl _) (List.forall₂_same.mpr fun _ _ => .refl _) (lenient.refl _)

/-- What two machines make of an instruction is alike. -/
inductive ResultAlias (R : UInt16 → UInt16 → Prop) :
    Except Fault (Flow × Machine) → Except Fault (Flow × Machine) → Prop where
  | ok {flow flow' : Flow} {m m' : Machine} (alike : flow.Alias flow') (moved : m.Alias R m') :
      ResultAlias R (.ok (flow, m)) (.ok (flow', m'))
  | error {f f' : Fault} (alike : f.Alias f') : ResultAlias R (.error f) (.error f')

/-! The instructions that are not plain assignments, at other addresses: those that choose by an
operator, a condition or a key look at no address, and those that use I use its cells. -/

theorem combine_readdress (m : Machine) (d : Dialect) (op : Operator) (x y : Nibble) :
    (m.readdress pc stack index).combine d op x y =
      (m.combine d op x y).readdress pc stack index := by
  cases op <;> rfl

theorem holds_readdress (m : Machine) (condition : Condition) :
    condition.holds (m.readdress pc stack index) = condition.holds m := by
  cases condition <;> rfl

theorem awaitKey_readdress (m : Machine) (x : Nibble) :
    (m.readdress pc stack index).awaitKey x =
      ((m.awaitKey x).1, { (m.awaitKey x).2 with pc, stack, index }) := by
  simp only [awaitKey, readdress]
  cases m.keypad.fresh? (m.keypad.meet (m.keysHeld?.getD m.keypad)) <;> rfl

theorem draw_readdress (same : SameCell m.index index) (d : Dialect) (x y n : Nibble) :
    (m.readdress pc stack index).draw d x y n = (m.draw d x y n).readdress pc stack index := by
  have pixels := same.pixels_eq m.memory n d.wrapsSprites (m.register x) (m.register y)
  rw [draw, draw, pixels]
  rfl

theorem storeDecimal_readdress (same : SameCell m.index index) (x : Nibble) :
    (m.readdress pc stack index).storeDecimal x = (m.storeDecimal x).readdress pc stack index := by
  simp only [storeDecimal, readdress, same.write_eq, (same.add _).write_eq]
  rfl

theorem storeRegisters_readdress (same : SameCell m.index index) (d : Dialect) (x : Nibble) :
    (m.readdress pc stack index).storeRegisters d x =
      (m.storeRegisters d x).readdress pc stack ((m.readdress pc stack index).indexAfter d x) := by
  have writes : (fun (memory : Memory) (r : Nibble) =>
        memory.write ((m.readdress pc stack index).transferAddress r) (m.register r)) =
      fun memory r => memory.write (m.transferAddress r) (m.register r) := by
    funext memory r
    exact ((same.add (UInt16.ofNat r)).write_eq memory _).symm
  rw [storeRegisters, storeRegisters]
  change _ = Machine.readdress { m with memory := _, index := _ } _ _ _
  rw [← writes]
  rfl

theorem loadRegisters_readdress (same : SameCell m.index index) (d : Dialect) (x : Nibble) :
    (m.readdress pc stack index).loadRegisters d x =
      (m.loadRegisters d x).readdress pc stack ((m.readdress pc stack index).indexAfter d x) := by
  have reads (r : Nibble) : m.memory.read ((m.readdress pc stack index).transferAddress r) =
      m.memory.read (m.transferAddress r) :=
    ((same.add (UInt16.ofNat r)).read_eq m.memory).symm
  simp only [loadRegisters, ← reads]
  rfl

/-- I moves on by the same number of cells. -/
theorem indexAfter_readdress (lenient : Lenient R) (same : R m.index index) (d : Dialect)
    (x : Nibble) : R (m.indexAfter d x) ((m.readdress pc stack index).indexAfter d x) := by
  rw [indexAfter, indexAfter]
  split
  · exact lenient.add same _
  · exact same

/-- Whatever an instruction does, it does the same at addresses of the same cells. Adding to I is the
    one exception: it tells whether I left twelve bits, so that I has to be the same. -/
theorem Alias.carryOut (lenient : Lenient R) (alike : m.Alias R m')
    (agrees : ∀ x, i = .addIndex x → m.index = m'.index) :
    ResultAlias R (m.carryOut d noise i) (m'.carryOut d noise i) := by
  obtain @⟨pc, stack, index, samePc, sameStack, sameIndex⟩ := alike
  have sameCell := lenient.sameCell sameIndex
  -- Most instructions look at no address. Calls and returns move addresses to and from the stack, and
  -- the instructions that use I use its cells.
  cases i with
  | ret =>
      cases opened : m.stack with
      | nil =>
          rw [opened] at sameStack
          cases sameStack
          simp only [Machine.carryOut, opened, readdress]
          exact .error (.stackUnderflow samePc)
      | cons caller rest =>
          rw [opened] at sameStack
          cases sameStack with
          | cons sameCaller sameRest =>
            simp only [Machine.carryOut, opened, readdress]
            exact .ok (.jump (sameCaller.add 2)) (.moved samePc sameRest sameIndex)
  | call addr =>
      have sameDepth : stack.length = m.stack.length := sameStack.length_eq.symm
      simp only [Machine.carryOut, readdress, sameDepth]
      split
      · exact .ok (.same _) (.moved samePc (.cons samePc sameStack) sameIndex)
      · exact .error (.stackOverflow samePc)
  | skipIf condition =>
      rw [Machine.carryOut, Machine.carryOut, holds_readdress]
      exact .ok (.same _) (.moved samePc sameStack sameIndex)
  | combine op x y =>
      obtain ⟨registers, same⟩ := m.combine_frame d op x y
      rw [Machine.carryOut, Machine.carryOut, combine_readdress, same]
      exact .ok (.same _) (.moved samePc sameStack sameIndex)
  | draw x y n =>
      rw [Machine.carryOut, Machine.carryOut, draw_readdress sameCell]
      exact .ok (.same _) (.moved samePc sameStack sameIndex)
  | awaitKey x =>
      rw [Machine.carryOut, Machine.carryOut, awaitKey_readdress]
      rcases m.awaitKey_frame x with ⟨registers, looked⟩ | ⟨held, looked⟩
      all_goals
        rw [looked]
        exact .ok (.same _) (.moved samePc sameStack sameIndex)
  | addIndex x =>
      obtain rfl : m.index = index := agrees x rfl
      exact .ok (.same _) (.moved samePc sameStack (lenient.refl _))
  | loadIndex | loadGlyph => exact .ok (.same _) (.moved samePc sameStack (lenient.refl _))
  | storeDecimal x =>
      rw [Machine.carryOut, Machine.carryOut, storeDecimal_readdress sameCell]
      exact .ok (.same _) (.moved samePc sameStack sameIndex)
  | storeRegisters x =>
      rw [Machine.carryOut, Machine.carryOut, storeRegisters_readdress sameCell]
      exact .ok (.same _) (.moved samePc sameStack (indexAfter_readdress lenient sameIndex d x))
  | loadRegisters x =>
      obtain ⟨registers, same⟩ : ∃ registers, m.loadRegisters d x =
          { m with registers, index := m.indexAfter d x } := ⟨_, rfl⟩
      rw [Machine.carryOut, Machine.carryOut, loadRegisters_readdress sameCell, same]
      exact .ok (.same _) (.moved samePc sameStack (indexAfter_readdress lenient sameIndex d x))
  | clearScreen | jump | loadByte | addByte | jumpOffset | random | loadDelay | setDelay | setSound =>
      exact .ok (.same _) (.moved samePc sameStack sameIndex)

/-- Adding to I tells two addresses of one cell apart, by the flag. -/
example :
    ((initial.readdress 0x200 [] 0x0000).addToIndex 0).register 0xF = 0 ∧
      ((initial.readdress 0x200 [] 0x1000).addToIndex 0).register 0xF = 1 := by
  decide +kernel

/-- Program counters of one cell fetch the same word. -/
theorem Alias.fetch (alike : m.Alias R m') : m.fetch.Alias R m'.fetch := by
  obtain @⟨pc, stack, index, samePc, sameStack, sameIndex⟩ := alike
  have sameWord : (m.readdress pc stack index).fetch = m.fetch.readdress pc stack index := by
    rw [Machine.fetch, Machine.fetch, samePc.readWord_eq]
    rfl
  rw [sameWord]
  exact .moved samePc sameStack sameIndex

/-- A host is told the same of both machines, and leaves them as far apart as they were. -/
theorem Alias.perform (lenient : Lenient R) (alike : m.Alias R m') (operation : Operation) :
    (m.perform operation).1 = (m'.perform operation).1 ∧
      (m.perform operation).2.Alias R (m'.perform operation).2 := by
  obtain @⟨pc, stack, index, samePc, sameStack, sameIndex⟩ := alike
  cases operation with
  | restart => exact ⟨rfl, .refl lenient _⟩
  | setIndex value => exact ⟨rfl, .moved samePc sameStack (lenient.refl value)⟩
  | loadProgram image =>
      simp only [Machine.perform, loadProgram, readdress]
      split <;> exact ⟨rfl, .moved samePc sameStack sameIndex⟩
  | loadFont bytes =>
      simp only [Machine.perform, loadFont, readdress]
      split <;> exact ⟨rfl, .moved samePc sameStack sameIndex⟩
  | _ => exact ⟨rfl, .moved samePc sameStack sameIndex⟩

end Machine

/-- Adding to I was executed. -/
def Turn.addsToIndex (t : Turn) : Bool :=
  match t.answer with
  | .outcome (.executed (.addIndex _)) => true
  | _ => false

theorem Turn.addsToIndex_iff {t : Turn} :
    t.addsToIndex = true ↔ ∃ x, t.answer = .outcome (.executed (.addIndex x)) := by
  rw [Turn.addsToIndex]
  split
  case h_1 x answered => exact iff_of_true rfl ⟨x, answered⟩
  case h_2 other => exact iff_of_false Bool.false_ne_true fun ⟨x, answered⟩ => other x answered

namespace Interpreter

variable {R : UInt16 → UInt16 → Prop} {c c' : Interpreter} {operation : Operation}

theorem addsToIndex_of_primed {e : Interpreter} {x : Nibble} (primed : c.primed? operation = some e)
    (added : e.execute.1 = .executed (.addIndex x)) : (c.turn operation).addsToIndex = true := by
  rw [Turn.addsToIndex_iff, turn, respond_of_primed primed, added]
  exact ⟨x, rfl⟩

/-- The interpreters agree in everything but the addresses that their machines hold. -/
inductive Alias (R : UInt16 → UInt16 → Prop) (c : Interpreter) : Interpreter → Prop where
  | moved {machine : Machine} (alike : c.machine.Alias R machine) : Alias R c { c with machine }

/-- The answers agree, but for the addresses in a fault. -/
inductive Answer.Alias : Answer → Answer → Prop where
  | same (answer : Answer) : Alias answer answer
  | outcome {outcome outcome' : Outcome} (alike : outcome.Alias outcome') :
      Alias (.outcome outcome) (.outcome outcome')

namespace Alias

theorem refl (lenient : Lenient R) (c : Interpreter) : c.Alias R c := .moved (.refl lenient _)

theorem opcode_eq (alike : c.Alias R c') : c'.machine.opcode = c.machine.opcode := by
  obtain ⟨⟨samePc, sameStack, sameIndex⟩⟩ := alike
  rfl

theorem samePc (alike : c.Alias R c') : SameCell c.machine.pc c'.machine.pc := by
  obtain ⟨⟨samePc, sameStack, sameIndex⟩⟩ := alike
  exact samePc

theorem sameIndex (alike : c.Alias R c') : R c.machine.index c'.machine.index := by
  obtain ⟨⟨samePc, sameStack, sameIndex⟩⟩ := alike
  exact sameIndex

theorem fetch (alike : c.Alias R c') : c.fetch.Alias R c'.fetch := by
  obtain ⟨alike⟩ := alike
  exact .moved alike.fetch

/-- A word that is passed over is passed over in both. -/
theorem fail (alike : c.Alias R c') {f f' : Fault} (sameFault : f.Alias f') :
    (c.fail f).1.Alias (c'.fail f').1 ∧ (c.fail f).2.Alias R (c'.fail f').2 := by
  obtain ⟨⟨samePc, sameStack, sameIndex⟩⟩ := alike
  exact ⟨.fault sameFault, .moved (.moved (samePc.add 2) sameStack sameIndex)⟩

theorem perform (lenient : Lenient R) (alike : c.Alias R c') {i : Instruction}
    (agrees : ∀ x, i = .addIndex x → c.machine.index = c'.machine.index) :
    (c.perform i).1.Alias (c'.perform i).1 ∧ (c.perform i).2.Alias R (c'.perform i).2 := by
  have same := alike
  obtain @⟨machine, alike⟩ := alike
  have results : Machine.ResultAlias R
      (c.machine.carryOut c.dialect (c.generator.noiseFor i).1 i)
      (machine.carryOut c.dialect (c.generator.noiseFor i).1 i) := alike.carryOut lenient agrees
  generalize carried : c.machine.carryOut c.dialect (c.generator.noiseFor i).1 i = result,
    carried' : machine.carryOut c.dialect (c.generator.noiseFor i).1 i = result' at results
  simp only [Interpreter.perform, carried, carried']
  cases results with
  | error sameFault => exact same.fail sameFault
  | ok sameFlow moved =>
      refine ⟨sameFlow.outcome i, ?_⟩
      obtain ⟨samePc, sameStack, sameIndex⟩ := moved
      exact .moved (.moved (sameFlow.target same.samePc) sameStack sameIndex)

/-- The word that was fetched last is dealt with alike. -/
theorem execute (lenient : Lenient R) (alike : c.Alias R c')
    (agrees : ∀ x, c.execute.1 = .executed (.addIndex x) → c.machine.index = c'.machine.index) :
    c.execute.1.Alias c'.execute.1 ∧ c.execute.2.Alias R c'.execute.2 := by
  rw [Interpreter.execute] at agrees ⊢
  rw [Interpreter.execute, alike.opcode_eq]
  cases decoded : Instruction.decode c.machine.opcode with
  | none => exact alike.fail (.unknownOpcode _ alike.samePc)
  | some i =>
      rw [decoded] at agrees
      refine alike.perform lenient fun x added => agrees x ?_
      subst added
      rfl

/-- An operation is answered alike, and leaves the interpreters as far apart as they were. -/
theorem respond (lenient : Lenient R) (alike : c.Alias R c')
    (agrees : (c.turn operation).addsToIndex = true → c.machine.index = c'.machine.index) :
    (c.respond operation).1.Alias (c'.respond operation).1 ∧
      (c.respond operation).2.Alias R (c'.respond operation).2 := by
  cases operation with
  | machine operation =>
      obtain ⟨alike⟩ := alike
      obtain ⟨sameAnswer, alike⟩ := alike.perform lenient operation
      simp only [Interpreter.respond, sameAnswer]
      exact ⟨.same _, .moved alike⟩
  | fetch => exact ⟨.same _, alike.fetch⟩
  | tick =>
      obtain ⟨alike⟩ := alike
      exact ⟨.same _, .moved (alike.perform lenient .tick).2⟩
  | reset =>
      have sameReset : c'.reset = c.reset := by
        obtain ⟨⟨samePc, sameStack, sameIndex⟩⟩ := alike
        rfl
      rw [Interpreter.respond, Interpreter.respond, sameReset]
      cases c.reset with
      | ok restored => exact ⟨.same _, .refl lenient restored⟩
      | error e => exact ⟨.same _, alike⟩
  | execute =>
      obtain ⟨sameOutcome, after⟩ := alike.execute lenient fun x added =>
        agrees (addsToIndex_of_primed rfl added)
      exact ⟨.outcome sameOutcome, after⟩
  | step =>
      obtain ⟨sameOutcome, after⟩ := alike.fetch.execute lenient fun x added =>
        agrees (addsToIndex_of_primed rfl added)
      exact ⟨.outcome sameOutcome, after⟩

end Alias

/-- Two interpreters go through a session side by side: they answer alike all the way, and in the end
    they agree in everything but addresses. -/
structure SideBySide (R : UInt16 → UInt16 → Prop) (c c' : Interpreter)
    (operations : List Operation) : Prop where
  answers : List.Forall₂ (fun t t' => t.answer.Alias t'.answer) (c.turns operations)
    (c'.turns operations)
  after : (c.after operations).Alias R (c'.after operations)

/-- Every session goes side by side, if I is the same or nothing is added to it. -/
theorem Alias.session (lenient : Lenient R) (alike : c.Alias R c') {operations : List Operation}
    (agrees : (∀ a b, R a b → a = b) ∨ ∀ t ∈ c.turns operations, t.addsToIndex = false) :
    SideBySide R c c' operations := by
  induction operations generalizing c c' with
  | nil => exact ⟨.nil, alike⟩
  | cons operation rest inductionHypothesis =>
      have agreesFirst : (c.turn operation).addsToIndex = true →
          c.machine.index = c'.machine.index := by
        intro adds
        rcases agrees with tight | unadded
        · exact tight _ _ alike.sameIndex
        · rw [unadded _ List.mem_cons_self] at adds
          cases adds
      have agreesRest : (∀ a b, R a b → a = b) ∨
          ∀ t ∈ (c.respond operation).2.turns rest, t.addsToIndex = false :=
        agrees.imp_right fun unadded t member => unadded t (List.mem_cons_of_mem _ member)
      obtain ⟨sameAnswer, moved⟩ := alike.respond lenient agreesFirst
      obtain ⟨answers, after⟩ := inductionHypothesis moved agreesRest
      exact ⟨.cons sameAnswer answers, after⟩

end Interpreter

end ChipEight
