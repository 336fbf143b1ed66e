import StepGlue.Session.Basic

/-!
What the commands of a session end in.
-/

namespace StepGlue

inductive GenerateStatus where
  | noDocument
  | cancelled
  | empty
  | noSteps
  | generated
deriving DecidableEq, Repr

def GenerateStatus.word : GenerateStatus → String
  | noDocument => "no_document"
  | cancelled => "cancelled"
  | empty => "empty"
  | noSteps => "no_steps"
  | generated => "generated"

inductive FileStatus where
  | cancelled
  | failed
  | created
deriving DecidableEq, Repr

def FileStatus.word : FileStatus → String
  | cancelled => "cancelled"
  | failed => "failed"
  | created => "created"

structure FileOutcome where
  status : FileStatus
  targetPath : Option String
  message : Option String
deriving DecidableEq, Repr

structure GenerateOutcome where
  status : GenerateStatus
  selectionInfo : Option String
  generation : Option Generation
  followUp : Option String
  file : Option FileOutcome

def GenerateOutcome.without (status : GenerateStatus) (selectionInfo : Option String) :
    GenerateOutcome where
  status
  selectionInfo
  generation := none
  followUp := none
  file := none

inductive ConfigureStatus where
  | cancelled
  | updated
deriving DecidableEq, Repr

def ConfigureStatus.word : ConfigureStatus → String
  | cancelled => "cancelled"
  | updated => "updated"

structure ConfigureOutcome where
  status : ConfigureStatus
  config : Config

inductive QuickOutcome where
  | generate (outcome : GenerateOutcome)
  | createFile (outcome : FileOutcome)
  | configure (outcome : ConfigureOutcome)
  | about (message : String)

end StepGlue
