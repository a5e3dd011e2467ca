/-
Module: ChipEight.CommandLine.Program
Purpose: The whole program: what a command line leads to, with every file it reads or writes as a
  request. The rate is looked at before any file; a listing is printed before the font and the other
  choices are looked at; the picture is written after everything is printed.
Main exports: Report, Report.log, Failure, Options.run, program
-/
import ChipEight.CommandLine.Files
import ChipEight.CommandLine.Parse
import ChipEight.CommandLine.Playback
import ChipEight.Interpreter.Setup
import ChipEight.Listing
import ChipEight.Screen.Render

namespace ChipEight.CommandLine

/-- What the program leaves behind, files apart. -/
structure Report where
  status : Nat
  output : List String := []
  events : List Log.Event := []
  /-- Lines about an error that ended the program. -/
  errors : List String := []
deriving DecidableEq

/-- The lines of the log. -/
def Report.log (r : Report) : List Log.Line := r.events.map Log.Event.line

/-- Why a run failed. -/
inductive Failure where
  | rateOutOfRange
  | readProgram (path : String) (cause : FileError)
  | readFont (path : String) (cause : FileError)
  | load (cause : LoadError)
  | writePicture (path : String) (cause : FileError)
deriving DecidableEq, Repr

namespace Failure

/-- What failed. -/
def message : Failure → String
  | .rateOutOfRange => "Instructions per second must be between [1-1000000]"
  | .readProgram path _ => "Failed to read ROM file " ++ path
  | .readFont path _ => "Failed to read font file " ++ path
  | .load _ => "Failed to load ROM"
  | .writePicture path _ => "Failed to write " ++ path

/-- Why it failed. -/
def cause? : Failure → Option String
  | .rateOutOfRange => none
  | .readProgram _ cause | .readFont _ cause | .writePicture _ cause => some cause.message
  | .load cause => some cause.message

/-- The lines that tell of a failure. A path may bring line breaks of its own. -/
def lines (f : Failure) : List String :=
  (("Error: " ++ f.message).toList.splitOn '\n').map String.ofList ++
    match f.cause? with
    | some cause => ["", "Caused by:", "    " ++ cause]
    | none => []

end Failure

/-- The name and the version of the program. -/
def versionText : String := "chip8-frontend 0.1.0"

/-- How the program is used. -/
def helpText : List String := [
  "Headless CHIP-8 runner",
  "",
  "Usage: chip8 [OPTIONS] <ROM>",
  "",
  "Arguments:",
  "  <ROM>  Filepath to Chip-8 ROM file that will be executed",
  "",
  "Options:",
  "      --font <FONT>              Filepath to an 80 byte font file",
  "      --mode <MODE>              Interpreter quirks to emulate " ++
    "[possible values: cosmac-vip, chip48, super-chip]",
  "  -i, --ips <IPS>                Instructions per second [default: 700]",
  "  -c, --cycles <CYCLES>          Number of instructions to execute before exiting " ++
    "[default: 3000]",
  "      --turbo                    Run as fast as possible instead of pacing to --ips",
  "      --hold <HOLD>              Hex keys (0-F) held down for the whole run",
  "      --seed <SEED>              PRNG seed",
  "      --disassemble              Print the ROM listing and exit",
  "      --ppm <PPM>                Write the final frame as a binary PPM image",
  "      --background <BACKGROUND>  Background Color as HEX 0xAABBFF [default: 0x000000]",
  "      --foreground <FOREGROUND>  Foreground Color as HEX 0xAABBFF [default: 0xFFFFFF]",
  "  -d, --debug                    Trace every executed instruction",
  "  -h, --help                     Print help",
  "  -V, --version                  Print version"]

/-- The greatest rate. -/
def maxRate : Nat := 1000000

/-- The palette of a picture. -/
def Options.palette (o : Options) : Palette where
  foreground := o.foreground?.getD Palette.standard.foreground
  background := o.background?.getD Palette.standard.background

/-- What an interpreter is built from. -/
def Options.setup (o : Options) (image : List UInt8) (font? : Option (List UInt8)) : Setup where
  program := image
  font?
  seed? := o.seed?
  dialect := (o.mode?.map Platform.dialect).getD {}

/-- The interpreter with keys held down. -/
def holdKeys (c : Interpreter) (keys : List Nibble) : Interpreter :=
  { c with
    machine := { c.machine with keypad := c.machine.keypad.press keys } }

/-- A run that is about to begin: keys are held, and nothing has happened but the build. -/
def Options.begun (o : Options) (c : Interpreter) : Playback where
  interpreter := holdKeys c o.hold
  events := [.built c.dialect, .loaded c.program.length]

/-- A whole run of a freshly built interpreter. -/
def Options.play (o : Options) (c : Interpreter) : Playback :=
  (o.begun c).play o.ips.toNat 0 o.cycles.toNat

/-- All events of a run that is over, in their order. -/
def Options.events (o : Options) (p : Playback) : List Log.Event :=
  p.events.reverse ++ [.summary o.cycles.toNat p.frames p.interpreter.faults]

/-- Ends the program with a failure. -/
def failed (f : Failure) : Script Report := .finish { status := 1, errors := f.lines }

/-- What is left to do after a run: print the frame and write the picture. -/
def Options.conclude (o : Options) (p : Playback) : Script Report :=
  let screen := p.interpreter.machine.screen
  let report : Report := { status := 0, output := screen.textLines, events := o.events p }
  match o.ppm? with
  | none => .finish report
  | some path =>
    .write path (screen.picture o.palette) fun
      | .ok () => .finish report
      | .error e =>
        .finish { report with status := 1, errors := (Failure.writePicture path e).lines }

/-- The time that a run takes of its own accord. -/
def Options.pace {α : Type} (o : Options) (next : Script α) : Script α :=
  if o.turbo then next else .pause (Pacing.duration o.ips.toNat o.cycles.toNat) next

/-- Builds an interpreter, runs it and concludes. -/
def Options.execute (o : Options) (entropy : Cipher.Key) (image : List UInt8)
    (font? : Option (List UInt8)) : Script Report :=
  match (o.setup image font?).build entropy with
  | .ok c => o.pace (o.conclude (o.play c))
  | .error e => failed (.load e)

/-- Reads the font, if one is named, and goes on. -/
def Options.withFont (o : Options) (entropy : Cipher.Key) (image : List UInt8) : Script Report :=
  match o.font? with
  | none => o.execute entropy image none
  | some path =>
    .read path fun
      | .ok bytes => o.execute entropy image (some bytes)
      | .error e => failed (.readFont path e)

/-- The lines of a program's listing. -/
def listingLines (image : List UInt8) : List String :=
  (Listing.disassemble image (UInt16.ofNat Machine.programStart)).map Listing.Row.line

/-- What options lead to. -/
def Options.run (o : Options) (entropy : Cipher.Key) : Script Report :=
  if o.ips = 0 ∨ maxRate < o.ips.toNat then failed .rateOutOfRange
  else
    .read o.rom fun
      | .error e => failed (.readProgram o.rom e)
      | .ok image =>
        if o.disassemble then .finish { status := 0, output := listingLines image }
        else o.withFont entropy image

/-- The level that a log has if nothing else is said. -/
def Options.threshold (o : Options) : Log.Threshold :=
  if o.debug then some .trace else some .warn

/-- A report with the events that a threshold lets through. -/
def Report.upTo (r : Report) (threshold : Log.Threshold) : Report :=
  { r with events := Log.shown threshold r.events }

/-- What a command line leads to. The log has the threshold that is set from outside, or else the
    one that the options ask for. The key `entropy` takes the place of a seed that is not given. -/
def program (arguments : List String) (threshold? : Option Log.Threshold) (entropy : Cipher.Key) :
    Script Report :=
  match parse arguments with
  | .ok o => (o.run entropy).map fun r => r.upTo (threshold?.getD o.threshold)
  | .error (.query .version) => .finish { status := 0, output := [versionText] }
  | .error (.query .help) => .finish { status := 0, output := helpText }
  | .error (.usage e) => .finish { status := 2, errors := ["error: " ++ e.message] }

end ChipEight.CommandLine
