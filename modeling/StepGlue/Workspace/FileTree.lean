import StepGlue.Failure
import StepGlue.Machine
import StepGlue.Workspace.Listing
import StepGlue.Workspace.Path

/-!
A tree of directories and files without links, with the operations that make directories and read
and write text files. Names are kept as their bytes are read.
-/

namespace StepGlue

/-- The names on the way from the top directory to a place in the tree. -/
abbrev Location := List String

def Location.toPath (place : Location) : Path where
  slashes := 1
  parts := place

structure FileTree where
  workingDirectory : Location
  top : Listing
deriving DecidableEq, Repr

namespace FileTree

open FileError (Cause)
open StepGlue.Text

/-- What stands at a place; the top directory is always there. -/
def lookup? (t : FileTree) : Location → Option Entry
  | [] => some .directory
  | name :: further => t.top.lookup? name further

def put (t : FileTree) (place : Location) (entry : Entry) : FileTree :=
  match place with
  | [] => t
  | name :: further => { t with top := t.top.put name further entry }

def toList (t : FileTree) : List (Location × Entry) :=
  t.top.toList []

/-- The longest name of a directory or file, in bytes. -/
def maxNameBytes : Nat := 255

/-- The longest path that is looked up, in bytes. -/
def maxPathBytes : Nat := 4095

variable [Machine]

/-- Where a path leads from a place; everything on the way must be a directory. -/
def follow (t : FileTree) (place : Location) : List String → Except Cause Location
  | [] => .ok place
  | part :: rest =>
    match t.lookup? place with
    | none => .error .notFound
    | some (.file _) => .error .notADirectory
    | some .directory =>
      if part = ".." then follow t place.dropLast rest
      else if maxNameBytes < EscapedBytes.size part then .error .nameTooLong
      else follow t (place ++ [EscapedBytes.canonical part]) rest

def locate (t : FileTree) (p : Path) : Except Cause Location :=
  if maxPathBytes < EscapedBytes.size p.toString then .error .nameTooLong
  else t.follow (if p.isAbsolute then [] else t.workingDirectory) p.parts

def refuse {α : Type} (cause : Cause) (p : Path) : Except Failure α :=
  .error (.file { cause, path := p.toString })

def find? (t : FileTree) (p : Path) : Except Failure (Option Entry) :=
  if p.hasNul then .ok none
  else match t.locate p with
    | .ok place => .ok (t.lookup? place)
    | .error .notFound | .error .notADirectory => .ok none
    | .error cause => refuse cause p

def isDirectory (t : FileTree) (p : Path) : Except Failure Bool := do
  return (← t.find? p) == some .directory

/-- Makes one directory in a directory that is there. -/
def makeDirectory (t : FileTree) (p : Path) : Except Failure FileTree :=
  if p.hasNul then .error .nulInPath
  else match t.locate p with
    | .error cause => refuse cause p
    | .ok place =>
      if (t.lookup? place).isSome then refuse .alreadyExists p else .ok (t.put place .directory)

def ensureDirectory (t : FileTree) (p : Path) : Except Failure FileTree :=
  match t.makeDirectory p with
  | .ok t => .ok t
  | .error e => do if ← t.isDirectory p then return t else throw e

def isNotFound : Failure → Bool
  | .file e => e.cause == .notFound
  | _ => false

/-- Makes a directory and at most `room` missing ones above it. What was made stays when a later one
fails. -/
def ensureWithin (t : FileTree) (p : Path) : (room : Nat) → Except Failure Unit × FileTree
  | 0 => (.error (.tooDeep .descending), t)
  | room + 1 =>
    match t.ensureDirectory p with
    | .ok t => (.ok (), t)
    | .error e =>
      if isNotFound e && !p.parts.isEmpty then
        match ensureWithin t p.parent room with
        | (.error e, t) => (.error e, t)
        | (.ok (), t) =>
          match t.ensureDirectory p with
          | .ok t => (.ok (), t)
          | .error e => (.error e, t)
      else (.error e, t)

def ensureDirectories (t : FileTree) (p : Path) : Except Failure Unit × FileTree :=
  t.ensureWithin p (Machine.newDirectories + 1)

def filePlace (t : FileTree) (p : Path) : Except Failure Location :=
  if p.hasNul then .error .nulInPath
  else match t.locate p with
    | .error cause => refuse cause p
    | .ok place =>
      if t.lookup? place = some .directory then refuse .isADirectory p else .ok place

/-- Writes a text file into a directory that is there, over a file of that name. One whose text has
no form in UTF-8 is left empty. -/
def writeText (t : FileTree) (p : Path) (text : String) : Except Failure Unit × FileTree :=
  match t.filePlace p, Charset.utf8.unencodable? text with
  | .error e, _ => (.error e, t)
  | .ok place, some e => (.error (.unencodable e), t.put place (.file (.text "")))
  | .ok place, none => (.ok (), t.put place (.file (.text text)))

end FileTree

end StepGlue
