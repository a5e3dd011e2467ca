/-
Module: ChipEight.Proofs.LastChoices
Purpose: What a build depends on. Of the choices that were made one after the other, the last one of
  each kind counts, naming a platform being a choice of its dialect; where a kind was never chosen
  there is a standard, but for the seed. The font is what a build can fail for first, and then the
  program; otherwise it makes a machine whose memory is laid out from these two, with everything
  else as it is at first.
Main exports: Setup.last?, Setup.lastFont, Setup.lastProgram, Setup.lastSeed?, Setup.lastDialect,
  Setup.chooseAll_eq, Setup.build_cases, Setup.build_eq_of_same, Machine.toList_cells_fresh,
  Interpreter.IsNew, Setup.exists_isNew
-/
import ChipEight.Proofs.FreshMachine

namespace ChipEight

namespace Setup

/-! ### The last choice of a kind -/

namespace Choice

def program? : Choice → Option (List UInt8)
  | .program image => some image
  | _ => none

def font? : Choice → Option (List UInt8)
  | .font bytes => some bytes
  | _ => none

def seed? : Choice → Option UInt64
  | .seed n => some n
  | _ => none

/-- The dialect of a choice: a platform has one as well. -/
def dialect? : Choice → Option Dialect
  | .platform p => some p.dialect
  | .dialect d => some d
  | _ => none

end Choice

variable {α : Type}

/-- What the last choice of a kind chooses, if there is one. -/
def last? (part? : Choice → Option α) (choices : List Choice) : Option α :=
  (choices.filterMap part?).getLast?

theorem last?_concat (part? : Choice → Option α) (choices : List Choice) (choice : Choice) :
    last? part? (choices ++ [choice]) = (part? choice).or (last? part? choices) := by
  rw [last?, List.filterMap_append]
  cases chosen : part? choice <;> simp [last?, chosen]

/-- The program that was chosen last, or none at all. -/
def lastProgram (choices : List Choice) : List UInt8 := (last? Choice.program? choices).getD []

/-- The bytes that were chosen last for a font, or those of the standard font. -/
def lastFont (choices : List Choice) : List UInt8 :=
  (last? Choice.font? choices).getD Font.standard.toList

def lastSeed? (choices : List Choice) : Option UInt64 := last? Choice.seed? choices

/-- The dialect that was chosen last, by itself or by a platform, or the one with every switch off. -/
def lastDialect (choices : List Choice) : Dialect := (last? Choice.dialect? choices).getD {}

/-- Of all choices, the last one of each kind is left. -/
theorem chooseAll_eq (choices : List Choice) : chooseAll {} choices =
    { program := lastProgram choices
      font? := last? Choice.font? choices
      seed? := lastSeed? choices
      dialect := lastDialect choices } := by
  induction choices using List.reverseRecOn with
  | nil => rfl
  | append_singleton choices choice inductionHypothesis =>
      rw [chooseAll] at inductionHypothesis
      rw [chooseAll, List.foldl_concat, inductionHypothesis]
      simp only [lastProgram, lastSeed?, lastDialect, last?_concat]
      cases choice <;> rfl

end Setup

/-! ### The memory of a fresh machine -/

/-- Memory begins with the font and has the program at 0x200, and all between and behind is zero. -/
theorem Machine.toList_cells_fresh (font : Font) {program : List UInt8}
    (fits : program.length ≤ 3584) : (fresh font program).memory.cells.toList =
      font.toList ++ List.replicate (0x200 - 80) 0 ++ program ++
        List.replicate (0x1000 - 0x200 - program.length) 0 := by
  apply List.ext_getElem
  · simp only [Vector.length_toList, List.length_append, List.length_replicate]
    omega
  · intro i inside _
    rw [Vector.length_toList] at inside
    rw [Vector.getElem_toList, getElem_fresh font program inside]
    simp only [List.getElem_append, List.length_append, Vector.length_toList, List.length_replicate,
      List.getElem_replicate, Vector.getElem_toList, programStart]
    by_cases started : 0x200 ≤ i
    · have behind : ¬i < 80 + (0x200 - 80) := by omega
      simp only [started, behind, if_true, dite_false]
      by_cases reached : i - 0x200 < program.length
      · have within : i < 80 + (0x200 - 80) + program.length := by omega
        simp only [within, dite_true, List.getElem?_eq_getElem reached, Option.getD_some]
      · have beyond : ¬i < 80 + (0x200 - 80) + program.length := by omega
        simp only [beyond, dite_false, List.getElem?_eq_none (Nat.le_of_not_lt reached),
          Option.getD_none]
    · have before : i < 80 + (0x200 - 80) := by omega
      have within : i < 80 + (0x200 - 80) + program.length := by omega
      simp only [started, before, within, if_false, dite_true]

/-! ### What a build makes -/

/-- The interpreter is new: memory has the font at its start, the program from 0x200 on and zeros
    everywhere else; a later restart has the same font, and a later reset the same program; and
    nothing else in the machine is different from what it is at first. -/
structure Interpreter.IsNew (c : Interpreter) (font program : List UInt8) (dialect : Dialect)
    (generator : Generator) : Prop where
  memory : c.machine.memory.cells.toList =
    font ++ List.replicate (0x200 - 80) 0 ++ program ++
      List.replicate (0x1000 - 0x200 - program.length) 0
  font : c.machine.font.toList = font
  initial : c.machine = { Machine.initial with memory := c.machine.memory, font := c.machine.font }
  dialect : c.dialect = dialect
  generator : c.generator = generator
  program : c.program = program
  faults : c.faults = 0

/-- Only one interpreter is new with the same contents. -/
theorem Interpreter.IsNew.unique {c c' : Interpreter} {font program : List UInt8} {dialect : Dialect}
    {generator : Generator} (new : c.IsNew font program dialect generator)
    (new' : c'.IsNew font program dialect generator) : c = c' := by
  have memory : c.machine.memory = c'.machine.memory := by
    apply Memory.ext_cells
    intro i inside
    rw [← Vector.getElem_toList (by simpa using inside), ← Vector.getElem_toList (by simpa using inside)]
    simp only [new.memory, new'.memory]
  have sameFont : c.machine.font = c'.machine.font :=
    Vector.toList_inj.mp (new.font.trans new'.font.symm)
  have machine : c.machine = c'.machine := by
    rw [new.initial, new'.initial, memory, sameFont]
  obtain ⟨-, -, -, dialect, generator, program, faults⟩ := new
  obtain ⟨-, -, -, dialect', generator', program', faults'⟩ := new'
  cases c
  cases c'
  simp_all

namespace Setup

variable {setup setup' : Setup} {entropy : Cipher.Key} {c : Interpreter} {m : Machine}
  {choices choices' : List Choice}

/-- The bytes that a build takes for a font. -/
def fontBytes (setup : Setup) : List UInt8 := setup.font?.getD Font.standard.toList

/-- The generator that a build begins with. -/
def generator (setup : Setup) (entropy : Cipher.Key) : Generator :=
  setup.seed?.elim ⟨entropy, 0⟩ Generator.seeded

theorem fontBytes_of_machine (made : setup.machine = .ok m) : m.font.toList = setup.fontBytes := by
  unfold Setup.machine at made
  cases chosen : setup.font? with
  | none =>
      rw [chosen] at made
      obtain ⟨-, rfl⟩ := Machine.loadProgram_eq_ok made
      rw [fontBytes, chosen]
      rfl
  | some bytes =>
      rw [chosen] at made
      obtain ⟨fonted, loaded, made⟩ := Except.bind_eq_ok.mp made
      obtain ⟨font, accepted, rfl⟩ := Machine.refont_of_loadFont loaded
      obtain ⟨-, rfl⟩ := Machine.loadProgram_eq_ok made
      rw [fontBytes, chosen]
      exact Font.toList_of_ofBytes? accepted

/-- What a build makes is new. -/
theorem isNew_of_build (built : setup.build entropy = .ok c) :
    c.IsNew setup.fontBytes setup.program setup.dialect (setup.generator entropy) := by
  obtain ⟨made, dialect, program, faults⟩ := build_eq_ok built
  have fits : setup.program.length ≤ 3584 := (machine_eq_ok made).1
  have fresh := machine_eq_fresh made
  have sameFont := fontBytes_of_machine made
  refine ⟨?_, sameFont, ?_, dialect, ?_, program, faults⟩
  · rw [fresh, Machine.toList_cells_fresh _ fits, sameFont]
  · obtain ⟨memory, font, same⟩ := (machine_eq_ok made).2
    rw [same]
  · obtain ⟨m, -, built⟩ := Except.bind_eq_ok.mp built
    cases built
    rw [generator]
    cases setup.seed? <;> rfl

/-- A build fails for a font of a wrong size, and else for a program that is too large, and for nothing
    else. -/
theorem build_cases (setup : Setup) (entropy : Cipher.Key) :
    (setup.fontBytes.length ≠ 80 ∧
      setup.build entropy = .error (.wrongFontSize setup.fontBytes.length)) ∨
    (setup.fontBytes.length = 80 ∧ 3584 < setup.program.length ∧
      setup.build entropy = .error (.programTooLarge setup.program.length)) ∨
    (setup.fontBytes.length = 80 ∧ setup.program.length ≤ 3584 ∧
      ∃ c, setup.build entropy = .ok c) := by
  by_cases sized : setup.fontBytes.length = 80
  · have chosenSized : ∀ bytes, setup.font? = some bytes → bytes.length = 80 := by
      intro bytes chosen
      rw [fontBytes, chosen] at sized
      exact sized
    by_cases fits : setup.program.length ≤ 3584
    · exact .inr (.inr ⟨sized, fits, exists_build chosenSized fits entropy⟩)
    · have large := Nat.lt_of_not_le fits
      exact .inr (.inl ⟨sized, large, build_of_large chosenSized large entropy⟩)
  · refine .inl ⟨sized, ?_⟩
    cases chosen : setup.font? with
    | none =>
        -- The standard font is never of a wrong size.
        rw [fontBytes, chosen] at sized
        exact absurd Vector.length_toList sized
    | some bytes =>
        have same : setup.fontBytes = bytes := by rw [fontBytes, chosen, Option.getD_some]
        rw [same] at sized ⊢
        exact build_of_wrongFont chosen sized entropy

theorem build_eq_wrongFontSize_iff {size : Nat} :
    setup.build entropy = .error (.wrongFontSize size) ↔
      setup.fontBytes.length ≠ 80 ∧ size = setup.fontBytes.length := by
  rcases setup.build_cases entropy with ⟨wrong, failed⟩ | ⟨sized, -, failed⟩ | ⟨sized, -, c, built⟩
  · simp [failed, wrong, eq_comm]
  · simp [failed, sized]
  · simp [built, sized]

theorem build_eq_programTooLarge_iff {size : Nat} :
    setup.build entropy = .error (.programTooLarge size) ↔
      setup.fontBytes.length = 80 ∧ 3584 < setup.program.length ∧ size = setup.program.length := by
  rcases setup.build_cases entropy with ⟨wrong, failed⟩ | ⟨sized, large, failed⟩ | ⟨-, fits, c, built⟩
  · simp [failed, wrong]
  · simp [failed, sized, large, eq_comm]
  · simp [built, Nat.not_lt.mpr fits]

/-- If the sizes are right, there is a build, and it is new. -/
theorem exists_isNew (sized : setup.fontBytes.length = 80) (fits : setup.program.length ≤ 3584)
    (entropy : Cipher.Key) : ∃ c, setup.build entropy = .ok c ∧
      c.IsNew setup.fontBytes setup.program setup.dialect (setup.generator entropy) := by
  rcases setup.build_cases entropy with ⟨wrong, -⟩ | ⟨-, large, -⟩ | ⟨-, -, c, built⟩
  · exact absurd sized wrong
  · exact absurd fits (Nat.not_le.mpr large)
  · exact ⟨c, built, isNew_of_build built⟩

/-- A build depends on the font bytes, the program, the dialect and the first generator, and on nothing
    else. -/
theorem build_eq_of_same {entropy' : Cipher.Key} (font : setup'.fontBytes = setup.fontBytes)
    (program : setup'.program = setup.program) (dialect : setup'.dialect = setup.dialect)
    (generator : setup'.generator entropy' = setup.generator entropy) :
    setup'.build entropy' = setup.build entropy := by
  rcases setup.build_cases entropy with ⟨wrong, failed⟩ | ⟨sized, large, failed⟩ |
    ⟨sized, fits, c, built⟩
  · rw [failed, build_eq_wrongFontSize_iff, font]
    exact ⟨wrong, rfl⟩
  · rw [failed, build_eq_programTooLarge_iff, font, program]
    exact ⟨sized, large, rfl⟩
  · rw [← font] at sized
    rw [← program] at fits
    obtain ⟨c', built', new⟩ := exists_isNew sized fits entropy'
    rw [font, program, dialect, generator] at new
    rw [built, built', new.unique (isNew_of_build built)]

/-! ### Builds after choices -/

theorem fontBytes_chooseAll (choices : List Choice) :
    (chooseAll {} choices).fontBytes = lastFont choices := by
  rw [chooseAll_eq]
  rfl

theorem program_chooseAll (choices : List Choice) :
    (chooseAll {} choices).program = lastProgram choices := by
  rw [chooseAll_eq]

theorem dialect_chooseAll (choices : List Choice) :
    (chooseAll {} choices).dialect = lastDialect choices := by
  rw [chooseAll_eq]

theorem generator_chooseAll (choices : List Choice) (entropy : Cipher.Key) :
    (chooseAll {} choices).generator entropy =
      (lastSeed? choices).elim ⟨entropy, 0⟩ Generator.seeded := by
  rw [chooseAll_eq]
  rfl

/-- Choices that end alike are built alike. -/
theorem build_chooseAll_of_same (font : lastFont choices' = lastFont choices)
    (program : lastProgram choices' = lastProgram choices)
    (seed : lastSeed? choices' = lastSeed? choices)
    (dialect : lastDialect choices' = lastDialect choices) (entropy : Cipher.Key) :
    (chooseAll {} choices').build entropy = (chooseAll {} choices).build entropy := by
  apply build_eq_of_same
  · rw [fontBytes_chooseAll, fontBytes_chooseAll, font]
  · rw [program_chooseAll, program_chooseAll, program]
  · rw [dialect_chooseAll, dialect_chooseAll, dialect]
  · rw [generator_chooseAll, generator_chooseAll, seed]

/-- With a seed, all builds are the same. -/
theorem build_chooseAll_of_seeded {seed : UInt64} (seeded : lastSeed? choices = some seed)
    (entropy entropy' : Cipher.Key) :
    (chooseAll {} choices).build entropy' = (chooseAll {} choices).build entropy := by
  apply build_eq_of_same rfl rfl rfl
  rw [generator_chooseAll, generator_chooseAll, seeded]
  rfl

end Setup

end ChipEight
