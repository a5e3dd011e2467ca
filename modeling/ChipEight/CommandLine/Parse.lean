/-
Module: ChipEight.CommandLine.Parse
Purpose: Reading the arguments of a command line from left to right. A value that stands in an
  argument of its own, and the path of the program, stay pending: they are read when the next known
  option or positional argument comes, or at the end. An argument that no option knows, a value for
  an option that takes none, and a second positional argument end the reading before anything
  pending is looked at. After the argument `--` everything is positional.
Main exports: Scan, Scan.step, parse
-/
import ChipEight.CommandLine.Values

namespace ChipEight.CommandLine

/-- What has been met but not read. -/
inductive Pending where
  | nothing
  | program (text : String)
  /-- A setting whose value would come next. -/
  | awaiting (setting : Setting)
  | value (setting : Setting) (text : String)
deriving DecidableEq, Repr

/-- The state of reading. -/
structure Scan where
  given : Given := {}
  pending : Pending := .nothing
  /-- The place of the positional argument is taken. -/
  programSeen : Bool := false
  /-- Options have ended. -/
  positionalOnly : Bool := false
deriving DecidableEq, Repr

namespace Scan

/-- An outcome that only goes on without a usage error. -/
def orStop {α : Type} : Except UsageError α → Except Stop α
  | .ok value => .ok value
  | .error e => .error (.usage e)

/-- Ends the reading with a usage error. -/
def refuse {α : Type} (e : UsageError) : Except Stop α := .error (.usage e)

/-- Reads what is pending. -/
def settle (s : Scan) : Except Stop Scan :=
  match s.pending with
  | .nothing => .ok s
  | .program text => do
    return { s with given := (← orStop (s.given.takeProgram text)), pending := .nothing }
  | .awaiting setting => refuse (.missingValue setting)
  | .value setting text => do
    return { s with given := (← orStop (s.given.take setting text)), pending := .nothing }

/-- Takes the positional argument. -/
def positional (s : Scan) (text : String) : Except Stop Scan :=
  if s.programSeen then refuse (.unknownArgument text)
  else do return { (← s.settle) with pending := .program text, programSeen := true }

/-- Takes a setting with its value. -/
def attached (s : Scan) (setting : Setting) (text : String) : Except Stop Scan := do
  let s ← s.settle
  return { s with given := (← orStop (s.given.take setting text)) }

/-- Takes a setting whose value comes next. -/
def await (s : Scan) (setting : Setting) : Except Stop Scan := do
  return { (← s.settle) with pending := .awaiting setting }

/-- Takes a flag. -/
def flag (s : Scan) (f : Flag) : Except Stop Scan := do
  let s ← s.settle
  return { s with given := (← orStop (s.given.raise f)) }

/-- Takes a query, which ends the reading. -/
def query (s : Scan) (q : Query) : Except Stop Scan := do
  let _ ← s.settle
  .error (.query q)

/-- A text up to its first equals sign, and what stands behind that sign. -/
def splitAtEquals : List Char → List Char × Option (List Char)
  | [] => ([], none)
  | c :: rest =>
    if c = '=' then ([], some rest)
    else let (name, value?) := splitAtEquals rest; (c :: name, value?)

/-- Takes a long option, written after two dashes. -/
def long (s : Scan) (text : List Char) : Except Stop Scan :=
  let (name, value?) := splitAtEquals text
  match Name.ofLong? (String.ofList name), value? with
  | none, _ => refuse (.unknownArgument (String.ofList ('-' :: '-' :: name)))
  | some (.setting setting), some value => s.attached setting (String.ofList value)
  | some (.setting setting), none => s.await setting
  | some (.flag f), none => s.flag f
  | some (.query q), none => s.query q
  | some name, some _ => refuse (.unwantedValue name)

/-- A value that follows a letter at once, or after an equals sign. -/
def dropEquals : List Char → List Char
  | '=' :: rest => rest
  | text => text

/-- Takes the letters that stand after one dash. -/
def letters (s : Scan) : List Char → Except Stop Scan
  | [] => .ok s
  | c :: rest =>
    match Name.ofShort? c with
    | none => refuse (.unknownArgument (String.ofList ['-', c]))
    | some (.flag f) => do (← s.flag f).letters rest
    | some (.query q) => s.query q
    | some (.setting setting) =>
      if rest = [] then s.await setting
      else s.attached setting (String.ofList (dropEquals rest))

/-- Takes an argument that is no option. -/
def plain (s : Scan) (text : String) : Except Stop Scan :=
  match s.pending with
  | .awaiting setting => .ok { s with pending := .value setting text }
  | _ => s.positional text

/-- Takes one argument. -/
def step (s : Scan) (argument : String) : Except Stop Scan :=
  if s.positionalOnly then s.positional argument
  else
    match argument.toList with
    | ['-', '-'] => .ok { s with positionalOnly := true }
    | '-' :: '-' :: text => s.long text
    | '-' :: c :: rest => s.letters (c :: rest)
    | _ => s.plain argument

/-- Ends the reading. -/
def finish (s : Scan) : Except Stop Options := do
  orStop (← s.settle).given.options

end Scan

/-- Reads the arguments of a command line. -/
def parse (arguments : List String) : Except Stop Options := do
  (← arguments.foldlM Scan.step {}).finish

end ChipEight.CommandLine
