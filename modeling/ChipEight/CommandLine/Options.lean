/-
Module: ChipEight.CommandLine.Options
Purpose: What a command line can ask for. A setting takes a value, a flag does not, and a query asks
  for a text instead of a run. Settings and flags have long names, the common ones also a letter.
Main exports: Options, Setting, Flag, Query, Name, Name.ofLong?, Name.ofShort?
-/
import ChipEight.Color
import ChipEight.Dialect
import ChipEight.Key

namespace ChipEight.CommandLine

/-- A run as a command line asks for it. -/
structure Options where
  /-- The file of the program. -/
  rom : String
  /-- The file of the font, if not the standard one. -/
  font? : Option String := none
  mode? : Option Platform := none
  /-- Instructions a second. -/
  ips : UInt32 := 700
  /-- How many instructions to run. -/
  cycles : UInt64 := 3000
  /-- Do not wait between instructions. -/
  turbo : Bool := false
  /-- Keys that are down all the time. -/
  hold : List Nibble := []
  seed? : Option UInt64 := none
  /-- Print a listing instead of running. -/
  disassemble : Bool := false
  /-- The file for a picture of the last frame. -/
  ppm? : Option String := none
  background? : Option Rgb := none
  foreground? : Option Rgb := none
  /-- Log every instruction. -/
  debug : Bool := false
deriving DecidableEq, Repr

/-- An option with a value. -/
inductive Setting where
  | font | mode | ips | cycles | hold | seed | ppm | background | foreground
deriving DecidableEq, Repr

/-- An option without a value. -/
inductive Flag where
  | turbo | disassemble | debug
deriving DecidableEq, Repr

/-- An option that asks for a text. -/
inductive Query where
  | help | version
deriving DecidableEq, Repr

/-- What an option's name stands for. -/
inductive Name where
  | setting (setting : Setting)
  | flag (flag : Flag)
  | query (query : Query)
deriving DecidableEq, Repr

/-- The option of a long name, without the two dashes. -/
def Name.ofLong? : String → Option Name
  | "font" => some (.setting .font)
  | "mode" => some (.setting .mode)
  | "ips" => some (.setting .ips)
  | "cycles" => some (.setting .cycles)
  | "turbo" => some (.flag .turbo)
  | "hold" => some (.setting .hold)
  | "seed" => some (.setting .seed)
  | "disassemble" => some (.flag .disassemble)
  | "ppm" => some (.setting .ppm)
  | "background" => some (.setting .background)
  | "foreground" => some (.setting .foreground)
  | "debug" => some (.flag .debug)
  | "help" => some (.query .help)
  | "version" => some (.query .version)
  | _ => none

/-- The option of a letter. -/
def Name.ofShort? : Char → Option Name
  | 'i' => some (.setting .ips)
  | 'c' => some (.setting .cycles)
  | 'd' => some (.flag .debug)
  | 'h' => some (.query .help)
  | 'V' => some (.query .version)
  | _ => none

/-- The long name of a setting. -/
def Setting.name : Setting → String
  | .font => "font"
  | .mode => "mode"
  | .ips => "ips"
  | .cycles => "cycles"
  | .hold => "hold"
  | .seed => "seed"
  | .ppm => "ppm"
  | .background => "background"
  | .foreground => "foreground"

/-- The long name of a flag. -/
def Flag.name : Flag → String
  | .turbo => "turbo"
  | .disassemble => "disassemble"
  | .debug => "debug"

/-- The long name of an option. -/
def Name.long : Name → String
  | .setting s => s.name
  | .flag f => f.name
  | .query .help => "help"
  | .query .version => "version"

/-- The platform of a mode's name. -/
def modeOfName? : String → Option Platform
  | "cosmac-vip" => some .cosmacVip
  | "chip48" => some .chip48
  | "super-chip" => some .superChip
  | _ => none

end ChipEight.CommandLine
