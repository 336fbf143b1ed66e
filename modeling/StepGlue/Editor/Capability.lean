import StepGlue.Failure

/-!
What a command can ask of an editor, and the editor that answers nothing.
-/

namespace StepGlue

inductive Capability where
  | activeText
  | selection
  | documentName
  | clipboard
  | writeFile
  | prompt
  | notify
  | preview
deriving DecidableEq, Repr

namespace Capability

/-- An editor that offers no capability refuses every request. -/
def refused (_ : Capability) : Failure :=
  .notOffered

end Capability

end StepGlue
