/-
Module: ChipEight.CommandLine.Files
Purpose: Reading and writing files as requests. A script says which file it wants next and how it
  goes on with the answer; it may also let time pass, and it ends with a result. The same script can
  be answered by the files of a system or by plain data: all that counts is what a read and a write
  are answered.
Main exports: FileError, FileError.message, Script, Script.map, FileSystem, Script.runOn
-/

namespace ChipEight

/-- Why a file could not be read or written. -/
inductive FileError where
  | notFound
  | notDirectory
  | isDirectory
  | nameTooLong
  | noSpace
  | outOfMemory
  /-- Another reason, in words. -/
  | other (reason : String)
deriving DecidableEq, Repr

/-- The wording of a file error. -/
def FileError.message : FileError → String
  | .notFound => "No such file or directory (os error 2)"
  | .notDirectory => "Not a directory (os error 20)"
  | .isDirectory => "Is a directory (os error 21)"
  | .nameTooLong => "File name too long (os error 36)"
  | .noSpace => "No space left on device (os error 28)"
  | .outOfMemory => "out of memory"
  | .other reason => reason

/-- A computation that asks for files. -/
inductive Script (α : Type) where
  | finish (result : α)
  /-- Let so many nanoseconds pass. -/
  | pause (duration : Nat) (next : Script α)
  | read (path : String) (next : Except FileError (List UInt8) → Script α)
  | write (path : String) (contents : List UInt8) (next : Except FileError Unit → Script α)

/-- The script with another result. -/
def Script.map {α β : Type} (f : α → β) : Script α → Script β
  | .finish result => .finish (f result)
  | .pause duration next => .pause duration (next.map f)
  | .read path next => .read path fun answer => (next answer).map f
  | .write path contents next => .write path contents fun answer => (next answer).map f

/-- What answers requests for files, in terms of the state `σ` of the files. A read leaves the files as
    they are. A write is answered and leaves other files; one that fails may have begun. -/
structure FileSystem (σ : Type) where
  read : σ → String → Except FileError (List UInt8)
  write : σ → String → List UInt8 → Except FileError Unit × σ

/-- Answers the requests of a script, and gives the files that are left. No time passes. -/
def Script.runOn {α σ : Type} (d : FileSystem σ) (t : σ) : Script α → α × σ
  | .finish result => (result, t)
  | .pause _ next => next.runOn d t
  | .read path next => (next (d.read t path)).runOn d t
  | .write path contents next =>
    (next (d.write t path contents).1).runOn d (d.write t path contents).2

end ChipEight
