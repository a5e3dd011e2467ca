/-
Module: ChipEight.CommandLine.Playback
Purpose: A run of an interpreter, cycle after cycle. A cycle lets the timers tick as often as is
  due, runs one step, notes when the tone begins or ends, and takes the frame if one is waiting.
Main exports: Playback, Playback.cycle, Playback.play
-/
import ChipEight.CommandLine.Log
import ChipEight.Interpreter.Basic
import ChipEight.Pacing

namespace ChipEight

/-- The state of a run. -/
structure Playback where
  interpreter : Interpreter
  /-- The tone is on. -/
  toneOn : Bool := false
  /-- How many frames were taken. -/
  frames : Nat := 0
  /-- What happened, the latest event first. -/
  events : List Log.Event := []
deriving DecidableEq

namespace Playback

/-- What is reported of an instruction before it is carried out; a word that is none is only
    reported as a fault. -/
def announcement (m : Machine) : List Log.Event :=
  match Instruction.decode m.opcode with
  | some i => [.executing m.pc m.opcode i]
  | none => []

/-- What is reported of the outcome of a step: a fault, once by itself and once with the cycle. -/
def report (cycle : Nat) : Outcome → List Log.Event
  | .fault f => [.fault f, .faultAt cycle f]
  | _ => []

/-- What is reported when the tone was and is as told. -/
def toneReport (cycle : Nat) (was is : Bool) : List Log.Event :=
  if is = was then [] else [.tone cycle is]

/-- Cycle number `k` of a run at `rate` instructions a second. -/
def cycle (rate k : Nat) (p : Playback) : Playback :=
  let ready := (p.interpreter.ticks (Pacing.ticksDue rate k)).fetch
  let (outcome, after) := ready.execute
  let sounds := after.machine.soundsTone
  let (waiting, screen) := after.machine.screen.takePending
  { interpreter := { after with machine := { after.machine with screen } }
    toneOn := sounds
    frames := if waiting then p.frames + 1 else p.frames
    events :=
      (announcement ready.machine ++ report k outcome ++ toneReport k p.toneOn sounds).reverse ++
        p.events }

/-- The `n` cycles from number `k` on. -/
def play (rate k : Nat) (p : Playback) : Nat → Playback
  | 0 => p
  | n + 1 => play rate (k + 1) (cycle rate k p) n

end Playback

end ChipEight
