/-
Module: ChipEight.CommandLine.Log
Purpose: What a run reports while it goes on. An event is data; its level and its wording are
  functions of it and make its line, and a log shows the events up to a chosen level.
Main exports: Log.Level, Log.Event, Log.Event.level, Log.Event.message, Log.Line, Log.Event.line,
  Log.shown
-/
import ChipEight.Dialect
import ChipEight.Fault

namespace ChipEight.Log

/-- How important an event is. -/
inductive Level where
  | error | warn | info | debug | trace
deriving DecidableEq, Repr

namespace Level

/-- The place of a level: the most important comes first. -/
def rank : Level → Nat
  | .error => 1
  | .warn => 2
  | .info => 3
  | .debug => 4
  | .trace => 5

/-- The name of a level in a log line. -/
def name : Level → String
  | .error => "ERROR"
  | .warn => "WARN"
  | .info => "INFO"
  | .debug => "DEBUG"
  | .trace => "TRACE"

end Level

/-- What a log shows: nothing, or the events of a level and of all more important ones. -/
abbrev Threshold := Option Level

/-- Reads a threshold. -/
def Threshold.ofName? : String → Option Threshold
  | "off" => some none
  | "error" => some (some .error)
  | "warn" => some (some .warn)
  | "info" => some (some .info)
  | "debug" => some (some .debug)
  | "trace" => some (some .trace)
  | _ => none

/-- Something that happened. -/
inductive Event where
  /-- A program was loaded. -/
  | loaded (size : Nat)
  /-- An interpreter was built. -/
  | built (dialect : Dialect)
  /-- An instruction is about to be carried out. -/
  | executing (pc opcode : UInt16) (instruction : Instruction)
  /-- An instruction was not carried out. -/
  | fault (fault : Fault)
  /-- The step of a cycle was a fault. -/
  | faultAt (cycle : Nat) (fault : Fault)
  /-- The tone began or ended in a cycle. -/
  | tone (cycle : Nat) (on : Bool)
  /-- The run is over. -/
  | summary (cycles frames faults : Nat)
deriving DecidableEq, Repr

/-- A line of a log: a level, and what is said. -/
structure Line where
  level : Level
  text : String
deriving DecidableEq, Repr

/-- A line as it is printed. -/
def Line.print (l : Line) : String := "[" ++ l.level.name ++ "] " ++ l.text

/-- A truth value in a message. -/
def flagText (value : Bool) : String := if value then "true" else "false"

/-- The switches of a dialect in a message. -/
def dialectText (d : Dialect) : String :=
  "Quirks \x7b shift_reads_vy: " ++ flagText d.shiftReadsVY ++
    ", load_store_increments_index: " ++ flagText d.transferMovesIndex ++
    ", jump_offset_uses_vx: " ++ flagText d.jumpAddsVX ++
    ", wrap_sprites: " ++ flagText d.wrapsSprites ++ " \x7d"

namespace Event

/-- The level of an event. -/
def level : Event → Level
  | .loaded _ | .built _ => .debug
  | .executing _ _ _ => .trace
  | .fault _ | .faultAt _ _ => .warn
  | .tone _ _ | .summary _ _ _ => .info

/-- The wording of an event. -/
def message : Event → String
  | .loaded size => "loaded " ++ Numeral.decimal size ++ " byte program at 0x200"
  | .built dialect => "built CHIP-8 with " ++ dialectText dialect
  | .executing pc opcode i =>
    addressText pc.toNat ++ ": " ++ Numeral.hex 4 opcode.toNat ++ " " ++ i.mnemonic
  | .fault f => f.message
  | .faultAt cycle f => "cycle " ++ Numeral.decimal cycle ++ ": " ++ f.message
  | .tone cycle on =>
    "cycle " ++ Numeral.decimal cycle ++ ": tone " ++ (if on then "on" else "off")
  | .summary cycles frames faults =>
    "ran " ++ Numeral.decimal cycles ++ " instructions, " ++ Numeral.decimal frames ++
      " frames, " ++ Numeral.decimal faults ++ " faults"

/-- What a log shows of an event. -/
def line (e : Event) : Line := ⟨e.level, e.message⟩

/-- A threshold lets an event through. -/
def passes (e : Event) : Threshold → Bool
  | none => false
  | some level => e.level.rank ≤ level.rank

end Event

/-- The events that a threshold lets through. -/
def shown (threshold : Threshold) (events : List Event) : List Event :=
  events.filter fun e => e.passes threshold

end ChipEight.Log
