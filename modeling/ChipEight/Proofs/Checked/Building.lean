/-
Module: ChipEight.Proofs.Checked.Building
Purpose: Builds after any choices. The last choice of each kind decides what is built and what a build
  fails for, on plain arrays as for the interpreter: no build names a cell that is not there, not
  even one that fails. With a seed every build is the same interpreter, and whatever becomes of the
  earlier ones, the next one runs as the first one would have run.
Main exports: ends_build_map, last_choices_decide
-/
import ChipEight.Proofs.Bench
import ChipEight.Proofs.Checked.Loading
import ChipEight.Proofs.LastChoices

namespace ChipEight.Checked

open Setup (lastFont lastProgram lastSeed? lastDialect)

variable {setup : Setup} {entropy : Cipher.Key}

/-- A build goes through on the arrays, whether it succeeds or fails. -/
theorem performs_build (setup : Setup) (entropy : Cipher.Key) :
    ∃ c, Performs (build setup)
      (assemble setup entropy { Machine.initial with memory := Memory.zero })
      (setup.machine.map fun _ => ()) c := by
  unfold Setup.machine build
  cases setup.font? with
  | none =>
      have loaded := performs_loadProgram (c := assemble setup entropy Machine.initial) setup.program
      exact ⟨_, .bind performs_restart (.bind (.pure _) loaded)⟩
  | some bytes =>
      have fonted := performs_loadFont (c := assemble setup entropy Machine.initial) bytes
      rw [assemble] at fonted
      cases accepted : Machine.initial.loadFont bytes with
      | error e =>
          simp only [accepted] at fonted ⊢
          exact ⟨_, .bind performs_restart (.bind fonted (.pure _))⟩
      | ok m =>
          simp only [accepted] at fonted ⊢
          have loaded := performs_loadProgram (c := assemble setup entropy m) setup.program
          exact ⟨_, .bind performs_restart (.bind fonted loaded)⟩

/-- The arrays give the answer of the build. -/
theorem ends_build_map (setup : Setup) (entropy : Cipher.Key) :
    ∃ s, build setup (State.blank setup entropy) =
      (.ok ((setup.build entropy).map fun _ => ()), s) := by
  obtain ⟨c, performs⟩ := performs_build setup entropy
  obtain ⟨s, ends, -⟩ := performs _ (represents_blank setup entropy)
  refine ⟨s, ends.trans ?_⟩
  rw [Setup.build]
  cases setup.machine <;> rfl

/-- The last choices decide. Whatever was chosen, a build fails for the font that was chosen last if it
    has not eighty bytes, else for the program that was chosen last if it has more than 3584, and for
    nothing else; earlier choices of the same kind do not matter, right or wrong. A build that
    succeeds has the two in memory with zeros between and behind them, the dialect that was chosen
    last, by itself or by a platform, and everything else as it is at first; and on plain arrays every
    build goes through with the same answer. Choices that agree in the last program, font, seed and
    dialect are built alike. If a seed was chosen, all builds are one interpreter: the next one runs
    as the first would run alone, whatever is done to those before it. -/
theorem last_choices_decide (choices : List Setup.Choice) (entropy : Cipher.Key) :
    (∀ size, (Setup.chooseAll {} choices).build entropy = .error (.wrongFontSize size) ↔
      (lastFont choices).length ≠ 80 ∧ size = (lastFont choices).length) ∧
    (∀ size, (Setup.chooseAll {} choices).build entropy = .error (.programTooLarge size) ↔
      (lastFont choices).length = 80 ∧ 3584 < (lastProgram choices).length ∧
        size = (lastProgram choices).length) ∧
    ((lastFont choices).length = 80 → (lastProgram choices).length ≤ 3584 →
      ∃ c, (Setup.chooseAll {} choices).build entropy = .ok c ∧
        c.IsNew (lastFont choices) (lastProgram choices) (lastDialect choices)
          ((lastSeed? choices).elim ⟨entropy, 0⟩ Generator.seeded) ∧
        build (Setup.chooseAll {} choices) (State.blank (Setup.chooseAll {} choices) entropy) =
          (.ok (.ok ()), (State.blank (Setup.chooseAll {} choices) entropy).holding c.machine)) ∧
    (∃ s, build (Setup.chooseAll {} choices) (State.blank (Setup.chooseAll {} choices) entropy) =
      (.ok (((Setup.chooseAll {} choices).build entropy).map fun _ => ()), s)) ∧
    (∀ choices', lastFont choices' = lastFont choices → lastProgram choices' = lastProgram choices →
      lastSeed? choices' = lastSeed? choices → lastDialect choices' = lastDialect choices →
      (Setup.chooseAll {} choices').build entropy = (Setup.chooseAll {} choices).build entropy) ∧
    ∀ seed c, lastSeed? choices = some seed → (Setup.chooseAll {} choices).build entropy = .ok c →
      ∀ (earlier later : List Bench.Act) (entropy' : Cipher.Key),
        ((Bench.empty (Setup.chooseAll {} choices)).after (earlier ++ [.build entropy'])).RunsAlone
          ((Bench.empty (Setup.chooseAll {} choices)).after earlier).built.length c later := by
  refine ⟨?_, ?_, ?_, ends_build_map _ entropy, ?_, ?_⟩
  · intro size
    rw [Setup.build_eq_wrongFontSize_iff, Setup.fontBytes_chooseAll]
  · intro size
    rw [Setup.build_eq_programTooLarge_iff, Setup.fontBytes_chooseAll, Setup.program_chooseAll]
  · intro sized fits
    rw [← Setup.fontBytes_chooseAll] at sized
    rw [← Setup.program_chooseAll] at fits
    obtain ⟨c, built, new⟩ := Setup.exists_isNew sized fits entropy
    rw [Setup.fontBytes_chooseAll, Setup.program_chooseAll, Setup.dialect_chooseAll,
      Setup.generator_chooseAll] at new
    exact ⟨c, built, new, build_holding built⟩
  · intro choices' font program seed dialect
    exact Setup.build_chooseAll_of_same font program seed dialect entropy
  · intro seed c seeded built earlier later entropy'
    rw [← Setup.build_chooseAll_of_seeded seeded entropy entropy'] at built
    exact Bench.runsAlone_of_build built earlier later

/-- A font and a program of wrong sizes that are chosen anew, with a platform and two seeds. -/
def revised : List Setup.Choice :=
  [.font [1, 2, 3], .program (List.replicate 4000 0), .seed 9, .dialect {}, .platform .cosmacVip,
    .program [0xC0, 0xFF], .seed 7, .font (List.replicate 80 0xAA)]

/-- The wrong sizes do not matter any more, and the platform has replaced the dialect; the second
    interpreter of a bench draws what the first one drew, though that has run on. If nothing is
    chosen anew, the font is what the build fails for. -/
theorem last_choices_decide_revised :
    (lastFont revised).length = 80 ∧ (lastProgram revised).length ≤ 3584 ∧
    lastSeed? revised = some 7 ∧
    (∃ c, (Setup.chooseAll {} revised).build (Vector.replicate 8 0) = .ok c ∧
      c.dialect.shiftReadsVY = true ∧
      c.machine.memory.cells.toList = List.replicate 80 0xAA ++ List.replicate (0x200 - 80) 0 ++
        [0xC0, 0xFF] ++ List.replicate (0x1000 - 0x200 - 2) 0 ∧
      ((Bench.empty (Setup.chooseAll {} revised)).after
        ([.build (Vector.replicate 8 1), .operate 0 .step] ++
          [.build (Vector.replicate 8 2)])).RunsAlone 1 c [.operate 0 .reset, .operate 1 .step]) ∧
    (Setup.chooseAll {} [.font (List.replicate 80 0xAA), .seed 7, .program [0xC0, 0xFF],
        .platform .cosmacVip]).build (Vector.replicate 8 0) =
      (Setup.chooseAll {} revised).build (Vector.replicate 8 0) ∧
    (Setup.chooseAll {} [.font [1, 2, 3], .program (List.replicate 4000 0)]).build
      (Vector.replicate 8 0) = .error (.wrongFontSize 3) := by
  have font : lastFont revised = List.replicate 80 0xAA := rfl
  have program : lastProgram revised = [0xC0, 0xFF] := rfl
  have seeded : lastSeed? revised = some 7 := rfl
  have sized : (lastFont revised).length = 80 := rfl
  have fits : (lastProgram revised).length ≤ 3584 := by decide
  obtain ⟨-, -, succeeds, -, alike, alone⟩ := last_choices_decide revised (Vector.replicate 8 0)
  obtain ⟨wrongFont, -⟩ := last_choices_decide
    [.font [1, 2, 3], .program (List.replicate 4000 0)] (Vector.replicate 8 0)
  obtain ⟨c, built, new, -⟩ := succeeds sized fits
  have memory := new.memory
  rw [font, program] at memory
  have first : (Setup.chooseAll {} revised).build (Vector.replicate 8 1) = .ok c :=
    (Setup.build_chooseAll_of_seeded seeded _ _).trans built
  have one : ((Bench.empty (Setup.chooseAll {} revised)).after
      [.build (Vector.replicate 8 1), .operate 0 .step]).built.length = 1 := by
    simp [Bench.after, Bench.empty, Bench.perform, first]
  have second := alone 7 c seeded built [.build (Vector.replicate 8 1), .operate 0 .step]
    [.operate 0 .reset, .operate 1 .step] (Vector.replicate 8 2)
  rw [one] at second
  refine ⟨sized, fits, seeded, ⟨c, built, ?_, memory, second⟩, alike _ rfl rfl rfl rfl,
    (wrongFont 3).mpr ⟨by decide, rfl⟩⟩
  rw [new.dialect]
  rfl

end ChipEight.Checked
