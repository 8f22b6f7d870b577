import Stencil.Calendar.Fields
import Stencil.Calendar.Moment
import Stencil.Calendar.Pattern
import Stencil.Calendar.Reader
import Stencil.CommandLine
import Stencil.CommandLine.Arguments
import Stencil.CommandLine.Files
import Stencil.CommandLine.Help
import Stencil.CommandLine.Switch
import Stencil.Diagnostic
import Stencil.Engine
import Stencil.Environment
import Stencil.Evaluation
import Stencil.Evaluation.Error
import Stencil.Evaluation.State
import Stencil.Fault
import Stencil.LogEvent
import Stencil.Macro
import Stencil.Macro.Behaviour
import Stencil.Macro.Builtin
import Stencil.Named
import Stencil.Number.Binary64
import Stencil.Number.Shortest
import Stencil.Number.Text
import Stencil.Program
import Stencil.Program.Body
import Stencil.Program.Expression
import Stencil.Program.Header
import Stencil.Program.Parse
import Stencil.Program.TokenReader
import Stencil.Registry
import Stencil.Session
import Stencil.Settings
import Stencil.Settings.Reader
import Stencil.SortedNames
import Stencil.Source
import Stencil.Text.Blank
import Stencil.Text.CaseMapping
import Stencil.Text.CaseProperty
import Stencil.Text.Casing
import Stencil.Text.Hidden
import Stencil.Text.Quoting
import Stencil.Text.Splitting
import Stencil.Token
import Stencil.Token.Character
import Stencil.Token.Literal
import Stencil.Token.Scan
import Stencil.Value
import Stencil.Value.Json
import Stencil.Main
import Stencil.Proofs.Nesting
import Stencil.Proofs.Outcome
import Stencil.Proofs.Room
import Stencil.Proofs.Agreement
import Stencil.Proofs.Concatenation
import Stencil.Proofs.PrintedBodies
import Stencil.Proofs.PrintedPrograms
import Stencil.Proofs.Dependence
import Stencil.Proofs.Coverage
import Stencil.Proofs.ErrorPlaces
import Stencil.Proofs.WellNested
import Stencil.Proofs.Subexpressions
import Stencil.Proofs.NameOrder
import Stencil.Proofs.Sessions
import Stencil.Proofs.Slips
import Stencil.Proofs.SlipReports
import Stencil.Proofs.SlippedTemplates
import Stencil.Proofs.HeaderReports
import Stencil.Proofs.OpenBlocks
import Stencil.Proofs.UnclosedBlocks
import Stencil.Proofs.CutTexts
import Stencil.Proofs.PieceBounds
import Stencil.Proofs.CutTemplates
import Stencil.Proofs.NodePlaces
import Stencil.Proofs.ExactSpans
import Stencil.Proofs.LiteralTemplates
import Stencil.Proofs.LoopPasses
import Stencil.Proofs.RenderedConstants
import Stencil.Proofs.BulkResolution
import Stencil.Proofs.ExactLimit
import Stencil.Proofs.EvaluationPairs
import Stencil.Proofs.LooserLimits
import Stencil.Proofs.ElifChains
import Stencil.Proofs.TrimmedBreaks
import Stencil.Proofs.OrderedTokens
import Stencil.Proofs.NestedSpans
import Stencil.Proofs.AcceptedArguments
import Stencil.Proofs.LineTable
import Stencil.Proofs.LineCounts
import Stencil.Proofs.ValueEquality
import Stencil.Proofs.BinaryValues
import Stencil.Proofs.Rounding
import Stencil.Proofs.NumericEquality
import Stencil.Proofs.WrittenNumbers
import Stencil.Proofs.VisibleSpans
import Stencil.Proofs.NumbersInHeaders
import Stencil.Proofs.ReportedTokens
import Stencil.Proofs.CaretUnderlines
import Stencil.Proofs.DelimitedParts
import Stencil.Proofs.IntegerWords
import Stencil.Proofs.Colours
import Stencil.Proofs.DateTexts
import Stencil.Proofs.StableConversions
import Stencil.Proofs.Balanced
import Stencil.Proofs.ScopeStack
import Stencil.Proofs.EndMarks
import Stencil.Proofs.CountedLevels
import Stencil.Proofs.ConsumedGroups
import Stencil.Proofs.BodyTokens
import Stencil.Proofs.StrayTokens
