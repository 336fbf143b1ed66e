import StepGlue.Service.Target
import StepGlue.Text.Lines

/-!
The resources of the service by path.
-/

namespace StepGlue

inductive Resource where
  | health
  | generate
  | render
  | file
  | quickActions
  | quickAction (name : String)
  | about
  | settings
deriving DecidableEq, Repr

namespace Resource

def methods : Resource → List String
  | health | quickActions | about => ["GET"]
  | generate | render | file | quickAction _ => ["POST"]
  | settings => ["GET", "PUT"]

def quickActionPath : String := "/api/v1/step-definitions/quick-actions"

def fixedPaths : List (String × Resource) :=
  [ ("/health", health),
    ("/api/v1/step-definitions/generate", generate),
    ("/api/v1/step-definitions/render", render),
    ("/api/v1/step-definitions/file", file),
    (quickActionPath, quickActions),
    ("/api/v1/step-definitions/about", about),
    ("/api/v1/settings", settings) ]

/-- A line feed at the very end of a path of fixed parts plays no part. -/
def withoutLastLineFeed (path : List Char) : List Char :=
  if path.getLast? = some '\n' then path.dropLast else path

def atPath? (path : String) : Option Resource :=
  match fixedPaths.lookup (String.ofList (withoutLastLineFeed path.toList)) with
  | some resource => some resource
  | none =>
    match Text.afterPrefix? (quickActionPath.toList ++ ['/']) path.toList with
    | some (c :: rest) =>
      if (c :: rest).contains '/' then none else some (quickAction (String.ofList (c :: rest)))
    | _ => none

def withoutSlashes (path : List Char) : List Char :=
  (path.reverse.dropWhile (· == '/')).reverse

/-- How often a client lets itself be sent on. -/
def maxRedirects : Nat := 20

/-- The resource at a path. A client that asks with slashes at the end is sent on to the path
without them if something is there, at most `room` times. -/
def ofPathWithin? (path : String) : (room : Nat) → Option Resource
  | 0 => atPath? path
  | room + 1 =>
    match atPath? path with
    | some resource => some resource
    | none =>
      let shorter := withoutSlashes path.toList
      if path != "/" && path.toList.getLast? = some '/' &&
          (atPath? (String.ofList shorter)).isSome then
        ofPathWithin? (String.ofList (Target.sentOn shorter)) room
      else none

def ofPath? (path : String) : Option Resource :=
  ofPathWithin? path maxRedirects

end Resource

end StepGlue
