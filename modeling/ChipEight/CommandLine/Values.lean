/-
Module: ChipEight.CommandLine.Values
Purpose: What a command line has given so far, and how values enter it. A setting other than the
  held keys is given once; its text is read only after that is clear. Paths may be any text but the
  empty one. The rate is read with a sign and must then fit 32 bits; cycles and seed are read
  without one and must fit 64 bits.
Main exports: UsageError, Stop, Given, Given.take, Given.raise
-/
import ChipEight.CommandLine.Options

namespace ChipEight.CommandLine

/-- What is wrong with a command line. -/
inductive UsageError where
  /-- No program is named. -/
  | missingProgram
  /-- No option has this name, or no place is left for this argument. -/
  | unknownArgument (text : String)
  /-- A setting has no value. -/
  | missingValue (setting : Setting)
  /-- A path is empty. -/
  | emptyPath
  /-- No mode has this name. -/
  | unknownMode (text : String)
  /-- A value cannot be read. -/
  | unreadableValue (setting : Setting) (text : String)
  /-- A setting or a flag is given twice. -/
  | repeated (name : Name)
  /-- A flag or a query is given a value. -/
  | unwantedValue (name : Name)
deriving DecidableEq, Repr

/-- The wording of a usage error. -/
def UsageError.message : UsageError → String
  | .missingProgram => "the following required arguments were not provided: <ROM>"
  | .unknownArgument text => "unexpected argument " ++ quoted text
  | .missingValue setting => "a value is required for --" ++ setting.name
  | .emptyPath => "a path may not be empty"
  | .unknownMode text => "invalid value " ++ quoted text ++ " for --mode"
  | .unreadableValue setting text => "invalid value " ++ quoted text ++ " for --" ++ setting.name
  | .repeated name => "--" ++ name.long ++ " cannot be used multiple times"
  | .unwantedValue name => "--" ++ name.long ++ " takes no value"

/-- Why reading a command line ends early. -/
inductive Stop where
  | usage (error : UsageError)
  | query (query : Query)
deriving DecidableEq, Repr

/-- What has been given so far. -/
structure Given where
  rom? : Option String := none
  font? : Option String := none
  mode? : Option Platform := none
  ips? : Option UInt32 := none
  cycles? : Option UInt64 := none
  turbo : Bool := false
  hold : List Nibble := []
  seed? : Option UInt64 := none
  disassemble : Bool := false
  ppm? : Option String := none
  background? : Option Rgb := none
  foreground? : Option Rgb := none
  debug : Bool := false
deriving DecidableEq, Repr

/-- The number below `2 ^ 32` that a text writes, a sign in front allowed. A minus sign is good for
    zero alone. -/
def readRate? (text : List Char) : Option UInt32 :=
  let n? := match text with
    | '-' :: digits => (Numeral.readDecimal? digits).filter (· = 0)
    | _ => Numeral.readDecimal? (Numeral.dropPlus text)
  (n?.filter (· < UInt32.size)).map UInt32.ofNat

/-- The number below `2 ^ 64` that a text writes, a plus sign in front allowed. -/
def readCount? (text : List Char) : Option UInt64 :=
  ((Numeral.readDecimal? (Numeral.dropPlus text)).filter (· < UInt64.size)).map UInt64.ofNat

/-- A path that a text names. -/
def readPath (text : String) : Except UsageError String :=
  if text = "" then .error .emptyPath else .ok text

/-- A value, or the error that the text of a setting cannot be read. -/
def readable (setting : Setting) (text : String) {α : Type} : Option α → Except UsageError α
  | some value => .ok value
  | none => .error (.unreadableValue setting text)

namespace Given

/-- A setting has been given and may not be given again. -/
def has (g : Given) : Setting → Bool
  | .font => g.font?.isSome
  | .mode => g.mode?.isSome
  | .ips => g.ips?.isSome
  | .cycles => g.cycles?.isSome
  | .hold => false
  | .seed => g.seed?.isSome
  | .ppm => g.ppm?.isSome
  | .background => g.background?.isSome
  | .foreground => g.foreground?.isSome

/-- Reads the value of a setting. -/
def read (g : Given) (setting : Setting) (text : String) : Except UsageError Given :=
  match setting with
  | .font => do return { g with font? := some (← readPath text) }
  | .mode =>
    match modeOfName? text with
    | some mode => .ok { g with mode? := some mode }
    | none => .error (.unknownMode text)
  | .ips => do return { g with ips? := some (← readable .ips text (readRate? text.toList)) }
  | .cycles => do
    return { g with cycles? := some (← readable .cycles text (readCount? text.toList)) }
  | .hold => do
    let keys ← readable .hold text ((text.toList.splitOn ',').mapM Key.ofText?)
    return { g with hold := g.hold ++ keys }
  | .seed => do return { g with seed? := some (← readable .seed text (readCount? text.toList)) }
  | .ppm => do return { g with ppm? := some (← readPath text) }
  | .background => do
    return { g with background? := some (← readable .background text (Rgb.ofText? text.toList)) }
  | .foreground => do
    return { g with foreground? := some (← readable .foreground text (Rgb.ofText? text.toList)) }

/-- Takes the value of a setting, unless it is the second one. -/
def take (g : Given) (setting : Setting) (text : String) : Except UsageError Given :=
  if g.has setting then .error (.repeated (.setting setting)) else g.read setting text

/-- Takes the path of the program. -/
def takeProgram (g : Given) (text : String) : Except UsageError Given := do
  return { g with rom? := some (← readPath text) }

/-- Raises a flag, unless it is up. -/
def raise (g : Given) (flag : Flag) : Except UsageError Given :=
  match flag with
  | .turbo => if g.turbo then .error (.repeated (.flag .turbo)) else .ok { g with turbo := true }
  | .disassemble =>
    if g.disassemble then .error (.repeated (.flag .disassemble))
    else .ok { g with disassemble := true }
  | .debug => if g.debug then .error (.repeated (.flag .debug)) else .ok { g with debug := true }

/-- The run that is asked for, with the usual values for what is not given. -/
def options (g : Given) : Except UsageError Options :=
  match g.rom? with
  | none => .error .missingProgram
  | some rom => .ok {
      rom
      font? := g.font?
      mode? := g.mode?
      ips := g.ips?.getD 700
      cycles := g.cycles?.getD 3000
      turbo := g.turbo
      hold := g.hold
      seed? := g.seed?
      disassemble := g.disassemble
      ppm? := g.ppm?
      background? := g.background?
      foreground? := g.foreground?
      debug := g.debug }

end Given

end ChipEight.CommandLine
