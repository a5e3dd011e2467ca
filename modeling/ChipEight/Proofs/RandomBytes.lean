/-
Module: ChipEight.Proofs.RandomBytes
Purpose: Where random bytes come from. The generator moves on by one word with every random instruction
  that is executed, and with nothing else, resets and loads included. So the place in its stream is
  the number of such instructions since the build, and the bytes that they see are a matter of the
  seed and of that number alone.
Main exports: Generator.byte, Interpreter.generator_respond, Interpreter.generator_after,
  Interpreter.register_of_random, Setup.generator_of_build, Setup.build_reseed,
  Interpreter.random_bytes_follow_seed
-/
import ChipEight.Proofs.Reset

namespace ChipEight

open Interpreter (Operation)

namespace Generator

/-- The random byte that is made of word number `k` of the stream of a key. -/
def byte (key : Cipher.Key) (k : Nat) : UInt8 := (word key k).toUInt8

/-- The generator after `n` more words. -/
def advance (g : Generator) (n : Nat) : Generator := { g with drawn := g.drawn + n }

theorem advance_advance (g : Generator) (m n : Nat) : (g.advance m).advance n = g.advance (m + n) := by
  simp [advance, Nat.add_assoc]

/-- A random instruction gets the next byte. -/
theorem noiseFor_random (g : Generator) (x : Nibble) (nn : UInt8) :
    g.noiseFor (.random x nn) = (byte g.key g.drawn, g.advance 1) := rfl

end Generator

namespace Interpreter

variable {c c' e : Interpreter} {outcome : Outcome} {operation : Operation} {x : Nibble}
  {nn : UInt8}

/-! ### The place in the stream -/

/-- An execution draws a word if it is one of a random instruction, and no word otherwise. -/
theorem generator_of_execute (ran : c.execute = (outcome, c')) :
    c'.generator = c.generator.advance outcome.usesChance.toNat := by
  cases executes_of_execute ran with
  | unknown | refused => rfl
  | @carried i flow m decoded carried =>
      by_cases random : ∃ x nn, i = .random x nn
      · obtain ⟨x, nn, rfl⟩ := random
        cases carried
        rfl
      · have notRandom : ∀ x nn, i ≠ .random x nn := by
          intro x nn same
          exact random ⟨x, nn, same⟩
        have silent : (flow.outcome i).usesChance = false := by
          cases flow with
          | stay => rfl
          | next | skip | jump =>
              cases i with
              | random x nn => exact absurd rfl (notRandom x nn)
              | _ => rfl
        rw [silent, noiseFor_of_ne notRandom]
        rfl

theorem usesChance_of_primed (primed : c.primed? operation = some e) :
    (c.turn operation).usesChance = e.execute.1.usesChance := by
  rw [Turn.usesChance, outcome?_of_primed primed, Option.any_some]

theorem generator_of_primed (primed : c.primed? operation = some e) :
    (c.respond operation).2.generator =
      c.generator.advance (c.turn operation).usesChance.toNat := by
  have ran : e.execute = (e.execute.1, (c.respond operation).2) := by
    rw [respond_of_primed primed]
  rw [usesChance_of_primed primed, generator_of_execute ran]
  obtain ⟨opcode, rfl⟩ := eq_of_primed primed
  rfl

/-- A turn draws a word if it executes a random instruction, and no word otherwise. -/
theorem generator_respond (c : Interpreter) (operation : Operation) :
    (c.respond operation).2.generator =
      c.generator.advance (c.turn operation).usesChance.toNat := by
  cases operation with
  | execute | step => exact generator_of_primed rfl
  | machine | fetch | tick => rfl
  | reset =>
      have silent : (c.turn .reset).usesChance = false := by
        rw [Turn.usesChance, outcome?_of_unprimed rfl, Option.any_none]
      obtain ⟨machine, faults, restored⟩ := c.frame_of_reset
      rw [silent, restored]
      rfl

/-- A session draws as many words as it executes random instructions. -/
theorem generator_after (c : Interpreter) (operations : List Operation) :
    (c.after operations).generator =
      c.generator.advance ((c.turns operations).countP Turn.usesChance) := by
  induction operations generalizing c with
  | nil => rfl
  | cons operation rest inductionHypothesis =>
      rw [after_cons, inductionHypothesis, generator_respond, Generator.advance_advance, turns,
        List.countP_cons, Nat.add_comm]
      cases (c.turn operation).usesChance <;> rfl

/-- A random instruction puts the next byte into its register, as far as its mask lets it through. -/
theorem register_of_random (answered : (c.respond operation).1 = .outcome (.executed (.random x nn))) :
    (c.respond operation).2.machine.register x =
      Generator.byte c.generator.key c.generator.drawn &&& nn := by
  obtain ⟨e, primed, ran⟩ := primed_of_outcome answered
  obtain ⟨flow, m, carried, same⟩ := carried_of_executed ran
  obtain ⟨opcode, rfl⟩ := eq_of_primed primed
  rw [Generator.noiseFor_random] at carried
  cases carried
  rw [same]
  simp [Machine.register, Machine.setRegister]

end Interpreter

/-! ### Seeds -/

namespace Setup

variable {setup : Setup} {entropy : Cipher.Key} {c : Interpreter} {seed : UInt64}

/-- A build with a seed begins with the stream of the seed. -/
theorem generator_of_build (seeded : setup.seed? = some seed) (built : setup.build entropy = .ok c) :
    c.generator = ⟨Generator.seedKey seed, 0⟩ := by
  obtain ⟨m, made, built⟩ := Except.bind_eq_ok.mp built
  rw [seeded] at built
  cases built
  rfl

/-- With another seed, a build is different in the generator only. -/
theorem build_reseed (built : setup.build entropy = .ok c) (seed : UInt64) :
    { setup with seed? := some seed }.build entropy =
      .ok (c.withGenerator (Generator.seeded seed)) := by
  obtain ⟨m, made, built⟩ := Except.bind_eq_ok.mp built
  cases built
  have same : { setup with seed? := some seed }.machine = .ok m := made
  rw [build, same]
  rfl

end Setup

namespace Interpreter

variable {c : Interpreter} {operation : Operation} {x : Nibble} {nn : UInt8}

section

variable {setup : Setup} {entropy : Cipher.Key} {seed : UInt64} {history : List Operation}

/-- The place in the stream of the seed is the number of random instructions since the build. -/
theorem generator_since_build (seeded : setup.seed? = some seed) (built : setup.build entropy = .ok c)
    (history : List Operation) : (c.after history).generator =
      ⟨Generator.seedKey seed, (c.turns history).countP Turn.usesChance⟩ := by
  rw [generator_after, Setup.generator_of_build seeded built]
  simp [Generator.advance]

/-- A random instruction sees the byte of its number. -/
theorem register_since_build (seeded : setup.seed? = some seed) (built : setup.build entropy = .ok c)
    (answered : ((c.after history).respond operation).1 = .outcome (.executed (.random x nn))) :
    (c.after (history ++ [operation])).machine.register x =
      Generator.byte (Generator.seedKey seed) ((c.turns history).countP Turn.usesChance) &&& nn := by
  rw [after_concat, register_of_random answered, generator_since_build seeded built]

end

/-- The bytes of chance follow the seed. After every session of a build with a seed, the generator is
    as many words into the stream of the seed as random instructions were executed since the build; and
    such an instruction, if it is number `k`, puts byte number `k` of the stream into its register as
    far as its mask lets it through. So the random instructions of one number see one byte in all
    builds with one seed, and a seed does not matter to a session that executes none. -/
theorem random_bytes_follow_seed {setup : Setup} {entropy : Cipher.Key} {seed : UInt64}
    {c : Interpreter} (seeded : setup.seed? = some seed) (built : setup.build entropy = .ok c) :
    (∀ history : List Operation, (c.after history).generator =
      ⟨Generator.seedKey seed, (c.turns history).countP Turn.usesChance⟩) ∧
    (∀ (history : List Operation) (operation : Operation) (x : Nibble) (nn : UInt8),
      ((c.after history).respond operation).1 = .outcome (.executed (.random x nn)) →
      (c.after (history ++ [operation])).machine.register x =
        ((Cipher.block (Generator.seedKey seed)
          ((c.turns history).countP Turn.usesChance / 16))[
            (c.turns history).countP Turn.usesChance % 16]).toUInt8 &&& nn) ∧
    (∀ (setup' : Setup) (entropy' : Cipher.Key) (c' : Interpreter) (history history' : List Operation)
      (operation operation' : Operation) (x x' : Nibble) (nn nn' : UInt8),
      setup'.seed? = some seed → setup'.build entropy' = .ok c' →
      (c'.turns history').countP Turn.usesChance = (c.turns history).countP Turn.usesChance →
      ((c.after history).respond operation).1 = .outcome (.executed (.random x nn)) →
      ((c'.after history').respond operation').1 = .outcome (.executed (.random x' nn')) →
      ∃ byte : UInt8,
        (c.after (history ++ [operation])).machine.register x = byte &&& nn ∧
        (c'.after (history' ++ [operation'])).machine.register x' = byte &&& nn') ∧
    ∀ seed' : UInt64, ∃ c' : Interpreter,
      { setup with seed? := some seed' }.build entropy = .ok c' ∧
      ∀ history : List Operation,
        ((∀ t ∈ c.turns history, t.usesChance = false) ∨
          ∀ t ∈ c'.turns history, t.usesChance = false) →
        c'.turns history = c.turns history ∧
        (c'.after history).withGenerator (c.after history).generator = c.after history := by
  refine ⟨generator_since_build seeded built, ?_, ?_, ?_⟩
  · intro history operation x nn answered
    exact register_since_build seeded built answered
  · intro setup' entropy' c' history history' operation operation' x x' nn nn' seeded' built' level
      answered answered'
    have other := register_since_build seeded' built' answered'
    rw [level] at other
    exact ⟨_, register_since_build seeded built answered, other⟩
  · intro seed'
    refine ⟨_, Setup.build_reseed built seed', ?_⟩
    intro history calm
    obtain ⟨sameTurns, sameAfter⟩ := session_withGenerator_of_either calm
    rw [sameTurns, sameAfter]
    exact ⟨rfl, rfl⟩

/-- A program of three random instructions, the second of which lets nothing through. -/
def threeDraws : Interpreter := ofProgram [0xC0, 0xFF, 0xC1, 0x00, 0xC2, 0x0F]

/-- A program that draws a byte again and again. -/
def endlessDraws : Interpreter := ofProgram [0xC5, 0xF0, 0x12, 0x00]

/-- A reset comes between the random instructions of one program, jumps between those of the other. The
    fourth of either gets the same byte; one shows the low digit of it, and the other the high one. -/
theorem random_bytes_follow_seed_draws :
    (threeDraws.after [.step, .reset, .step, .step]).generator.drawn = 3 ∧
    (threeDraws.after ([.step, .reset, .step, .step] ++ [.step])).machine.register 2 = 4 ∧
    ((Cipher.block (Generator.seedKey 0) (3 / 16))[3 % 16]).toUInt8 &&& 0x0F = 4 ∧
    (∃ byte : UInt8, byte &&& 0x0F = 4 ∧
      (endlessDraws.after (List.replicate 6 .step ++ [.step])).machine.register 5 =
        byte &&& 0xF0) ∧
    ∃ c : Interpreter,
      Setup.build { program := threeDraws.program, seed? := some 1 } (Vector.replicate 8 0) = .ok c ∧
      c.turns [.fetch, .tick] = threeDraws.turns [.fetch, .tick] := by
  have built : Setup.build { program := threeDraws.program, seed? := some 0 }
      (Vector.replicate 8 0) = .ok threeDraws := build_ofProgram _ _ (by decide)
  have built' : Setup.build { program := endlessDraws.program, seed? := some 0 }
      (Vector.replicate 8 0) = .ok endlessDraws := build_ofProgram _ _ (by decide)
  obtain ⟨count, count', answered, answered', four, calm⟩ :
      (threeDraws.turns [.step, .reset, .step, .step]).countP Turn.usesChance = 3 ∧
      (endlessDraws.turns (List.replicate 6 .step)).countP Turn.usesChance = 3 ∧
      ((threeDraws.after [.step, .reset, .step, .step]).respond .step).1 =
        .outcome (.executed (.random 2 0x0F)) ∧
      ((endlessDraws.after (List.replicate 6 .step)).respond .step).1 =
        .outcome (.executed (.random 5 0xF0)) ∧
      (threeDraws.after ([.step, .reset, .step, .step] ++ [.step])).machine.register 2 = 4 ∧
      ∀ t ∈ threeDraws.turns [.fetch, .tick], t.usesChance = false := by
    decide +kernel
  obtain ⟨place, value, sameByte, reseed⟩ := random_bytes_follow_seed rfl built
  have drawn := congrArg Generator.drawn (place [.step, .reset, .step, .step])
  have sees := value [.step, .reset, .step, .step] .step 2 0x0F answered
  obtain ⟨byte, low, high⟩ := sameByte _ _ _ [.step, .reset, .step, .step] (List.replicate 6 .step)
    .step .step 2 5 0x0F 0xF0 rfl built' (count'.trans count.symm) answered answered'
  obtain ⟨c, builtOne, same⟩ := reseed 1
  simp only [count] at drawn sees
  rw [four] at sees low
  exact ⟨drawn, four, sees.symm, ⟨byte, low.symm, high⟩, c, builtOne, (same _ (.inl calm)).1⟩

end Interpreter

end ChipEight
