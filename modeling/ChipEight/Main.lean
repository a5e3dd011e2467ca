/-
Module: ChipEight.Main
Purpose: The program at the command line. It answers the requests of a script from the file system
  and prints the report: the output on the one stream, the log and the errors on the other.
Main exports: main
-/
import ChipEight.CommandLine.Program

namespace ChipEight.CommandLine

/-- The number of a system error, which some calls report negated. -/
def errorNumber (code : UInt32) : Nat :=
  if code < 0x80000000 then code.toNat else (0 - code).toNat

/-- What went wrong with a file. -/
def fileError (e : IO.Error) : FileError :=
  match e with
  | .noFileOrDirectory _ _ _ => .notFound
  | .inappropriateType _ code _ => if errorNumber code = 20 then .notDirectory else .isDirectory
  | .invalidArgument _ code _ =>
    if errorNumber code = 36 then .nameTooLong else .other e.toString
  | .resourceExhausted _ code _ =>
    if errorNumber code = 28 then .noSpace else .other e.toString
  | _ => .other e.toString

/-- Answers the requests of a script. -/
def answer {α : Type} : Script α → IO α
  | .finish result => pure result
  | .pause duration next => do
    IO.sleep (UInt32.ofNat (min (duration / 1000000) (UInt32.size - 1)))
    answer next
  | .read path next => do
    let contents ← (IO.FS.readBinFile path).toBaseIO
    answer (next (match contents with
      | .ok bytes => .ok bytes.toList
      | .error e => .error (fileError e)))
  | .write path contents next => do
    let written ← (IO.FS.withFile path .write fun handle => do
      handle.write ⟨contents.toArray⟩
      handle.flush).toBaseIO
    answer (next (match written with
      | .ok () => .ok ()
      | .error e => .error (fileError e)))

/-- Eight words of a byte string. -/
def keyOfBytes (bytes : ByteArray) : Cipher.Key :=
  Vector.ofFn fun i =>
    (List.range 4).foldl (fun w j => w * 256 + (bytes.toList.getD (4 * i + j) 0).toUInt32) 0

/-- Prints a report. -/
def Report.print (r : Report) : IO Unit := do
  for l in r.log do
    IO.eprintln l.print
  for line in r.output do
    IO.println line
  for line in r.errors do
    IO.eprintln line

end ChipEight.CommandLine

open ChipEight CommandLine in
/-- Runs the program with the arguments of its command line. The variable `RUST_LOG` sets the level of
    the log. -/
def main (arguments : List String) : IO UInt32 := do
  let setting ← IO.getEnv "RUST_LOG"
  let entropy ← IO.getRandomBytes 32
  let report ← answer (program arguments (setting.bind Log.Threshold.ofName?) (keyOfBytes entropy))
  report.print
  return UInt32.ofNat report.status
