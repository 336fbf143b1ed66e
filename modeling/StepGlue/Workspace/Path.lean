import StepGlue.Text.Lines

/-!
File paths as written, with empty parts and single dots dropped and double dots kept.
-/

namespace StepGlue

structure Path where
  /-- The slashes at the start: none, one, or exactly two. -/
  slashes : Nat
  parts : List String
deriving DecidableEq, Repr

namespace Path

open StepGlue.Text

def partsOf (s : List Char) : List String :=
  ((splitOn '/' s).filter fun part => part != [] && part != ['.']).map String.ofList

def ofString (s : String) : Path :=
  let leading := (s.toList.takeWhile (· == '/')).length
  { slashes := if leading = 2 then 2 else min leading 1
    parts := partsOf s.toList }

def isAbsolute (p : Path) : Bool :=
  p.slashes != 0

protected def toString (p : Path) : String :=
  if p.slashes = 0 && p.parts.isEmpty then "."
  else String.ofList (List.replicate p.slashes '/') ++ "/".intercalate p.parts

/-- The path without its last part; a path with no parts is its own parent. -/
def parent (p : Path) : Path :=
  { p with parts := p.parts.dropLast }

def baseName (p : Path) : String :=
  p.parts.getLast?.getD ""

def hasNul (p : Path) : Bool :=
  p.parts.any fun part => part.toList.contains '\x00'

end Path

end StepGlue
