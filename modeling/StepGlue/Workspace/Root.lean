import StepGlue.Workspace.FileTree

/-!
A workspace: a directory below which files are written, and which no path leads out of.
-/

namespace StepGlue

structure Workspace where
  root : Location
deriving DecidableEq, Repr

namespace Workspace

open StepGlue.Text

/-- Where parts of a path lead from a place if nothing on the way is looked at. -/
def walk (place : Location) (parts : List String) : Location :=
  parts.foldl (fun place part => if part = ".." then place.dropLast else place ++ [part]) place

def rootPath (w : Workspace) : String :=
  w.root.toPath.toString

/-- A relative path without blanks around it and slashes before it. -/
def relativePart (path : String) : List Char :=
  (trim path.toList).dropWhile fun c => c == '/' || c == '\\'

/-- The place that a relative path names; it must be the root or lie below it. -/
def resolve (w : Workspace) (path : String) : Except Failure Location :=
  let part := relativePart path
  if part.isEmpty then .error .noPath
  else if part.contains '\x00' then .error .nulInPath
  else
    let place := walk w.root (Path.partsOf part)
    if w.root.isPrefixOf place then .ok place else .error (.outsideRoot path w.rootPath)

def relativeTo (w : Workspace) (place : Location) : String :=
  Path.toString { slashes := 0, parts := place.drop w.root.length }

variable [Machine]

/-- What keeps a part of a path from being looked at, when `lead` characters stand before it. -/
def partObstacle? (lead : Nat) (part : String) : Option Failure :=
  match Charset.fileName.unencodable? part with
  | some u => some (.unencodable { u with position := lead + u.position })
  | none => if part.toList.contains '\x00' then some .nulInPath else none

/-- What keeps the parts of a path after a start from being looked at; the first one that cannot be
decides. -/
def obstacle? (start : Path) (parts : List String) : Option Failure :=
  let before := parts.takeWhile fun part => (partObstacle? 0 part).isNone
  let lead := { start with parts := walk start.parts before ++ [""] }
  (parts.drop before.length).head?.bind (partObstacle? lead.toString.length)

/-- The workspace at a path, seen from the working directory of a tree. -/
def ofPath (t : FileTree) (path : String) : Except Failure Workspace :=
  let p := Path.ofString path
  match obstacle? { slashes := min p.slashes 1, parts := [] } p.parts with
  | some e => .error e
  | none => .ok { root := walk (if p.isAbsolute then [] else t.workingDirectory) p.parts }

def writablePlace (w : Workspace) (path : String) : Except Failure Location :=
  match obstacle? w.root.toPath (Path.partsOf (relativePart path)) with
  | some e => .error e
  | none => w.resolve path

/-- Writes a text file and gives its path from the root; missing directories are made on demand. -/
def write (w : Workspace) (t : FileTree) (path text : String) (makeDirectories : Bool) :
    Except Failure String × FileTree :=
  match w.writablePlace path with
  | .error e => (.error e, t)
  | .ok place =>
    let (made, t) :=
      if makeDirectories then t.ensureDirectories place.toPath.parent else (.ok (), t)
    match made with
    | .error e => (.error e, t)
    | .ok () =>
      let (written, t) := t.writeText place.toPath text
      (written.map fun _ => w.relativeTo place, t)

end Workspace

end StepGlue
