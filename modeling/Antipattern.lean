import Antipattern.Analysis.Detector
import Antipattern.Analysis.Program
import Antipattern.Analysis.Runner
import Antipattern.Analysis.Suppression
import Antipattern.Binding.Binder
import Antipattern.Binding.Catalog
import Antipattern.Binding.Scope
import Antipattern.CSharp.Concrete
import Antipattern.CSharp.Conditional
import Antipattern.CSharp.Declaration
import Antipattern.CSharp.File
import Antipattern.CSharp.Layout
import Antipattern.CSharp.Lexeme
import Antipattern.CSharp.Part
import Antipattern.CSharp.TokenTree
import Antipattern.CSharp.TypeArgs
import Antipattern.Command.Arguments
import Antipattern.Command.Request
import Antipattern.Command.Run
import Antipattern.Files.Access
import Antipattern.Files.Directory
import Antipattern.Files.Loading
import Antipattern.Files.Path
import Antipattern.Glob.Basic
import Antipattern.Glob.Match
import Antipattern.Json.Basic
import Antipattern.Main
import Antipattern.Order.Lexicographic
import Antipattern.Order.StableSort
import Antipattern.Report.Encoding
import Antipattern.Report.Format
import Antipattern.Report.Pretty
import Antipattern.Report.Printed
import Antipattern.Report.Sarif
import Antipattern.Report.Style
import Antipattern.Report.Summary
import Antipattern.Rule.Builtin
import Antipattern.Rule.Complexity
import Antipattern.Rule.Finding
import Antipattern.Rule.Message
import Antipattern.Rule.Naming
import Antipattern.Rule.NanoService
import Antipattern.Rule.Severity
import Antipattern.Rule.Size
import Antipattern.Rule.Tally
import Antipattern.Settings.Basic
import Antipattern.Settings.Reader
import Antipattern.Settings.Template
import Antipattern.Symbol.Basic
import Antipattern.Symbol.Hierarchy
import Antipattern.Symbol.Interfaces
import Antipattern.Symbol.Table
import Antipattern.Syntax.Kind
import Antipattern.Syntax.Node
import Antipattern.Syntax.Pragma
import Antipattern.Syntax.Span
import Antipattern.Syntax.Tree
import Antipattern.Text.Blank
import Antipattern.Text.Invisible
import Antipattern.Text.Quoted
import Antipattern.Text.Split
import Antipattern.Text.WordChar
import Antipattern.Yaml.Document
import Antipattern.Yaml.Scalar
import Antipattern.Yaml.Token
import Antipattern.Proofs.DocumentOrder
import Antipattern.Proofs.Visits
import Antipattern.Proofs.CallTrace
import Antipattern.Proofs.Recording
import Antipattern.Proofs.CallLog
import Antipattern.Proofs.FindingOrder
import Antipattern.Proofs.RunCalls
import Antipattern.Proofs.Cancellation
import Antipattern.Proofs.ReportedFindings
import Antipattern.Proofs.ScheduleIndependence
import Antipattern.Proofs.EndpointVerdict
import Antipattern.Proofs.SharedTally
import Antipattern.Proofs.CutRanges
import Antipattern.Proofs.TriviaLayout
import Antipattern.Proofs.SourceText
import Antipattern.Proofs.PragmaOrder
import Antipattern.Proofs.RuleSwitches
import Antipattern.Proofs.TableNames
import Antipattern.Proofs.TableOperations
import Antipattern.Proofs.Declarations
import Antipattern.Proofs.SecondPass
import Antipattern.Proofs.CleanNames
import Antipattern.Proofs.NameResolution
import Antipattern.Proofs.DeclaredSymbols
import Antipattern.Proofs.CatalogClosure
import Antipattern.Proofs.ReferenceEffects
import Antipattern.Proofs.BoundTable
import Antipattern.Proofs.FileOrder
import Antipattern.Proofs.BuiltinRuns
import Antipattern.Proofs.RuleSeparation
import Antipattern.Proofs.Violations
import Antipattern.Proofs.InterfaceClosure
import Antipattern.Proofs.OriginalDefinitions
import Antipattern.Proofs.InheritedInterfaces
import Antipattern.Proofs.PartialControllers
import Antipattern.Proofs.BaseChain
import Antipattern.Proofs.InterfaceSearch
import Antipattern.Proofs.LineRoles
import Antipattern.Proofs.ConditionalBlocks
import Antipattern.Proofs.OpenBlocks
import Antipattern.Proofs.DirectiveLines
import Antipattern.Proofs.StrandPlaces
import Antipattern.Proofs.ConvertedTokens
import Antipattern.Proofs.TrailingTrivia
import Antipattern.Proofs.LineBreaks
import Antipattern.Proofs.GapBreaks
import Antipattern.Proofs.TableUpkeep
import Antipattern.Proofs.FrameworkTypes
import Antipattern.Proofs.Placeholders
import Antipattern.Proofs.PassEffects
import Antipattern.Proofs.DeclaredMembers
import Antipattern.Proofs.GenericLinks
import Antipattern.Proofs.NamespaceBodies
import Antipattern.Proofs.PaddedText
import Antipattern.Proofs.PragmaTexts
import Antipattern.Proofs.UsingDirectives
import Antipattern.Proofs.MessageFormats
import Antipattern.Proofs.JsonFields
import Antipattern.Proofs.ReportAgreement
import Antipattern.Proofs.ResultDocuments
import Antipattern.Proofs.TriviaOrder
import Antipattern.Proofs.StackWalk
import Antipattern.Proofs.CoveredBytes
