import StepGlue.Editor.Capability
import StepGlue.Main
import StepGlue.Proofs.ClassSource
import StepGlue.Proofs.Except
import StepGlue.Proofs.FirstOccurrence
import StepGlue.Proofs.Generation
import StepGlue.Proofs.Generation.Layout
import StepGlue.Proofs.Generation.Lines
import StepGlue.Proofs.Generation.Methods
import StepGlue.Proofs.Indentation
import StepGlue.Proofs.Indentation.Balance
import StepGlue.Proofs.Json.Encodable
import StepGlue.Proofs.Json.Number
import StepGlue.Proofs.Json.Reader
import StepGlue.Proofs.Json.RoundTrip
import StepGlue.Proofs.Json.Text
import StepGlue.Proofs.Json.WellFormed
import StepGlue.Proofs.Layout
import StepGlue.Proofs.Method.Annotation
import StepGlue.Proofs.Method.Comment
import StepGlue.Proofs.Method.Identifier
import StepGlue.Proofs.Method.Layout
import StepGlue.Proofs.Method.Literal
import StepGlue.Proofs.Method.Name
import StepGlue.Proofs.Method.Numbering
import StepGlue.Proofs.Method.Registry
import StepGlue.Proofs.Method.Rendered
import StepGlue.Proofs.Method.Signature
import StepGlue.Proofs.Method.Spelling
import StepGlue.Proofs.Number.Double
import StepGlue.Proofs.Number.Shortest
import StepGlue.Proofs.PairList
import StepGlue.Proofs.Regex.Basic
import StepGlue.Proofs.Regex.Reader
import StepGlue.Proofs.Regex.Search
import StepGlue.Proofs.Service.QuickAction
import StepGlue.Proofs.Service.Render
import StepGlue.Proofs.Service.Restart
import StepGlue.Proofs.Service.Settings
import StepGlue.Proofs.Session.Alike
import StepGlue.Proofs.Session.Answers
import StepGlue.Proofs.Session.Changes
import StepGlue.Proofs.Session.Commands
import StepGlue.Proofs.Session.Configure
import StepGlue.Proofs.Session.CreateFile
import StepGlue.Proofs.Session.Effect
import StepGlue.Proofs.Session.FollowUp
import StepGlue.Proofs.Session.Generate
import StepGlue.Proofs.Session.Laws
import StepGlue.Proofs.Session.Layers
import StepGlue.Proofs.Session.Overrides
import StepGlue.Proofs.Session.Plain
import StepGlue.Proofs.Session.Reachable
import StepGlue.Proofs.Session.Rejection
import StepGlue.Proofs.Session.Renewal
import StepGlue.Proofs.Session.Stored
import StepGlue.Proofs.Session.TwoRuns
import StepGlue.Proofs.Session.Update
import StepGlue.Proofs.Settings.Defaults
import StepGlue.Proofs.Settings.Isolation
import StepGlue.Proofs.Settings.Memory
import StepGlue.Proofs.Settings.Preserved
import StepGlue.Proofs.Settings.Recovery
import StepGlue.Proofs.Settings.Run
import StepGlue.Proofs.Settings.Store
import StepGlue.Proofs.Settings.Update
import StepGlue.Proofs.Step.Basic
import StepGlue.Proofs.Step.Classified
import StepGlue.Proofs.Step.Delimited
import StepGlue.Proofs.Step.Faithful
import StepGlue.Proofs.Step.FeatureText
import StepGlue.Proofs.Step.FirstMatch
import StepGlue.Proofs.Step.Line
import StepGlue.Proofs.Step.Match
import StepGlue.Proofs.Step.NamesApart
import StepGlue.Proofs.Step.Naming
import StepGlue.Proofs.Step.Normalized
import StepGlue.Proofs.Step.OneLine
import StepGlue.Proofs.Step.Opening
import StepGlue.Proofs.Step.Pattern
import StepGlue.Proofs.Step.Place
import StepGlue.Proofs.Step.Placeholder
import StepGlue.Proofs.Step.Segment
import StepGlue.Proofs.Step.SlotName
import StepGlue.Proofs.Step.Span
import StepGlue.Proofs.Step.UniqueMatch
import StepGlue.Proofs.Step.Word
import StepGlue.Proofs.Text.Blank
import StepGlue.Proofs.Text.LetterCase
import StepGlue.Proofs.Text.Lines
import StepGlue.Proofs.Text.StandIns
import StepGlue.Proofs.Text.Words
import StepGlue.Proofs.Workspace.Destination
import StepGlue.Proofs.Workspace.Failure
import StepGlue.Proofs.Workspace.FileTree
import StepGlue.Proofs.Workspace.Frame
import StepGlue.Proofs.Workspace.Growth
import StepGlue.Proofs.Workspace.Outline
import StepGlue.Proofs.Workspace.Plain
import StepGlue.Proofs.Workspace.Root
import StepGlue.Proofs.Workspace.Write
import StepGlue.Service.App
import StepGlue.Service.Target
