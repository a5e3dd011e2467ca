/-
Module: ChipEight.CommandLine.FileTree
Purpose: The files of a system as plain data, which answers a script in place of a file system.
  Paths start in the working directory, which has no directories inside. Around it there is what
  every system has: the root, the directories of the root, and the devices. A path is followed part
  by part, and the first part that leads nowhere decides the error.
Main exports: Folder, Place, FileTree, FileTree.follow, FileTree.read, FileTree.write,
  FileTree.system, Script.runIn
-/
import ChipEight.CommandLine.Files

namespace ChipEight

/-- How many bytes the name of a file may have. -/
def maxNameBytes : Nat := 255

/-- How many bytes a path may have. -/
def maxPathBytes : Nat := 4095

/-- The directories. -/
inductive Folder where
  /-- The working directory. -/
  | here
  /-- A directory of the root. -/
  | top (name : String)
  | root
deriving DecidableEq, Repr

/-- The files that stand for devices. -/
inductive Device where
  /-- Empty, and takes everything. -/
  | null
  /-- Zeros without end, and takes everything. -/
  | zero
  /-- Zeros without end, and takes nothing. -/
  | full
deriving DecidableEq, Repr

/-- What a path leads to. -/
inductive Place where
  | folder (folder : Folder)
  | device (device : Device)
  /-- A file, there or not yet there. -/
  | entry (folder : Folder) (name : String)
  /-- A name that no directory can hold. -/
  | overlong
  /-- The way ended before the last part. -/
  | lost (error : FileError)
deriving DecidableEq, Repr

/-- The device with a name. Nothing stands on the standard input. -/
def Device.ofName? : String → Option Device
  | "null" | "stdin" => some .null
  | "zero" => some .zero
  | "full" => some .full
  | _ => none

namespace Folder

/-- The names that every root has. -/
def topNames : List String :=
  ["bin", "boot", "dev", "etc", "home", "lib", "media", "mnt", "opt", "proc", "root", "run", "sbin",
    "srv", "sys", "tmp", "usr", "var"]

/-- The directory above. The working directory stands among the temporary files, and the root is
    above itself. -/
def parent : Folder → Folder
  | .here => .top "tmp"
  | .top _ | .root => .root

/-- What a directory has under a name. -/
def child (folder : Folder) (name : String) : Place :=
  if maxNameBytes < name.utf8ByteSize then .overlong
  else if folder = .root ∧ name ∈ topNames then .folder (.top name)
  else if folder = .top "dev" then ((Device.ofName? name).map .device).getD (.entry folder name)
  else .entry folder name

/-- One part of a path onward. An empty part is as good as a single dot. -/
def step (folder : Folder) : String → Place
  | "" | "." => .folder folder
  | ".." => .folder folder.parent
  | name => folder.child name

end Folder

/-- Contents of files by directory and name; of two contents for one file the first counts. -/
structure FileTree where
  files : List ((Folder × String) × List UInt8)
deriving DecidableEq, Repr

namespace FileTree

/-- Files of the working directory, and no others. -/
def ofList (files : List (String × List UInt8)) : FileTree :=
  ⟨files.map fun (name, contents) => ((.here, name), contents)⟩

/-- The contents of a file. -/
def file? (t : FileTree) (folder : Folder) (name : String) : Option (List UInt8) :=
  t.files.lookup (folder, name)

/-- The tree with other contents for a file. -/
def put (t : FileTree) (folder : Folder) (name : String) (contents : List UInt8) : FileTree :=
  ⟨((folder, name), contents) :: t.files.filter fun f => f.1 ≠ (folder, name)⟩

/-- One part of a path onward from a place. Nothing is below a file, not even the file itself. -/
def enter (t : FileTree) (place : Place) (part : String) : Place :=
  match place with
  | .folder folder => folder.step part
  | .device _ => .lost .notDirectory
  | .entry folder name => .lost (if (t.file? folder name).isSome then .notDirectory else .notFound)
  | .overlong => .lost .nameTooLong
  | .lost error => .lost error

/-- Where a path leads to: from the root if it begins with a slash, or else from the working
    directory. -/
def follow (t : FileTree) (path : List Char) : Place :=
  let start : Folder := if path.head? = some '/' then .root else .here
  ((path.splitOn '/').map String.ofList).foldl t.enter (.folder start)

/-- Reads the file at a path. What has no end does not fit in any memory. -/
def read (t : FileTree) (path : String) : Except FileError (List UInt8) :=
  if maxPathBytes < path.utf8ByteSize then .error .nameTooLong
  else
    match t.follow path.toList with
    | .folder _ => .error .isDirectory
    | .device .null => .ok []
    | .device .zero | .device .full => .error .outOfMemory
    | .entry folder name =>
      match t.file? folder name with
      | some contents => .ok contents
      | none => .error .notFound
    | .overlong => .error .nameTooLong
    | .lost error => .error error

/-- A path without the slashes at its end. -/
def trimSlashes (path : List Char) : List Char :=
  (path.reverse.dropWhile (· == '/')).reverse

/-- Writes the file at a path. Slashes at the end ask for a directory, which cannot be written. -/
def write (t : FileTree) (path : String) (contents : List UInt8) : Except FileError FileTree :=
  if maxPathBytes < path.utf8ByteSize then .error .nameTooLong
  else
    let trimmed := trimSlashes path.toList
    match t.follow trimmed with
    | .folder _ => .error .isDirectory
    | .lost error => .error error
    | place =>
      if trimmed ≠ path.toList then .error .isDirectory
      else
        match place with
        | .entry folder name => .ok (t.put folder name contents)
        | .overlong => .error .nameTooLong
        | .device .full => .error .noSpace
        | _ => .ok t

/-- A tree as what answers requests. A write that fails has not begun. -/
def system : FileSystem FileTree where
  read := read
  write t path contents :=
    match t.write path contents with
    | .ok t' => (.ok (), t')
    | .error e => (.error e, t)

end FileTree

/-- Answers the requests of a script from a tree. -/
def Script.runIn {α : Type} (t : FileTree) (script : Script α) : α × FileTree :=
  script.runOn FileTree.system t

end ChipEight
