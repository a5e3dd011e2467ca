/-
Module: ChipEight.Interpreter.Setup
Purpose: Choosing a program, a font, a seed and a dialect, and building an interpreter from the
  choices. A later choice replaces an earlier one of its kind; naming a platform is a choice of its
  dialect. The font is looked at before the program.
Main exports: Setup, Setup.Choice, Setup.choose, Setup.build
-/
import ChipEight.Interpreter.Basic

namespace ChipEight

/-- What has been chosen. -/
structure Setup where
  program : List UInt8 := []
  font? : Option (List UInt8) := none
  seed? : Option UInt64 := none
  dialect : Dialect := {}
deriving DecidableEq

namespace Setup

/-- One choice. -/
inductive Choice where
  | program (image : List UInt8)
  | font (bytes : List UInt8)
  | seed (seed : UInt64)
  | platform (platform : Platform)
  | dialect (dialect : Dialect)
deriving DecidableEq, Repr

/-- Makes a choice. -/
def choose (s : Setup) : Choice → Setup
  | .program image => { s with program := image }
  | .font bytes => { s with font? := some bytes }
  | .seed seed => { s with seed? := some seed }
  | .platform platform => { s with dialect := platform.dialect }
  | .dialect dialect => { s with dialect }

/-- Makes choices one after the other. -/
def chooseAll (s : Setup) (choices : List Choice) : Setup := choices.foldl choose s

/-- The machine that the choices ask for. -/
def machine (s : Setup) : Except LoadError Machine := do
  let m ← match s.font? with
    | some bytes => Machine.initial.loadFont bytes
    | none => .ok Machine.initial
  m.loadProgram s.program

/-- Builds an interpreter. The key `entropy` takes the place of a seed that was not chosen. -/
def build (s : Setup) (entropy : Cipher.Key) : Except LoadError Interpreter := do
  let machine ← s.machine
  let generator := match s.seed? with
    | some seed => Generator.seeded seed
    | none => ⟨entropy, 0⟩
  return { machine, dialect := s.dialect, generator, program := s.program, faults := 0 }

end Setup

end ChipEight
