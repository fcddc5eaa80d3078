import BuildPlan.Binary64.Basic
import BuildPlan.Binary64.Decimal
import BuildPlan.Binary64.Shortest
import BuildPlan.Calendar
import BuildPlan.CommandLine.Invocation
import BuildPlan.CommandLine.Rehearsal
import BuildPlan.CommandLine.Report
import BuildPlan.CommandLine.Run
import BuildPlan.CommandLine.Session
import BuildPlan.Dictionary
import BuildPlan.Environment
import BuildPlan.Error
import BuildPlan.Extension.Builtin
import BuildPlan.Extension.Listing
import BuildPlan.Extension.Registry
import BuildPlan.Extension.Surroundings
import BuildPlan.Gate.Basic
import BuildPlan.Gate.Eval
import BuildPlan.Gate.Expr
import BuildPlan.Gate.Lexeme
import BuildPlan.Gate.Parser
import BuildPlan.Gate.Scalar
import BuildPlan.Host.Basic
import BuildPlan.Host.Place
import BuildPlan.Host.Scripted
import BuildPlan.Host.Survey
import BuildPlan.Host.Workdir
import BuildPlan.Json.Basic
import BuildPlan.Json.Number
import BuildPlan.Json.Printer
import BuildPlan.Json.Reader
import BuildPlan.Kdl.Basic
import BuildPlan.Kdl.Character
import BuildPlan.Kdl.Number
import BuildPlan.Kdl.Reader
import BuildPlan.Kdl.Text
import BuildPlan.Main
import BuildPlan.Placeholder.Markers
import BuildPlan.Placeholder.Token
import BuildPlan.Project.Basic
import BuildPlan.Project.Document
import BuildPlan.Project.Plan
import BuildPlan.Proofs.Binary64.Numeral
import BuildPlan.Proofs.Calendar
import BuildPlan.Proofs.CommandLine.Arguments
import BuildPlan.Proofs.CommandLine.Assignments
import BuildPlan.Proofs.CommandLine.Listing
import BuildPlan.Proofs.CommandLine.Validation
import BuildPlan.Proofs.Dictionary
import BuildPlan.Proofs.Extension.Builtin
import BuildPlan.Proofs.Extension.Date
import BuildPlan.Proofs.Gate.Answer
import BuildPlan.Proofs.Gate.Climbing
import BuildPlan.Proofs.Gate.Comparison
import BuildPlan.Proofs.Gate.Cursor
import BuildPlan.Proofs.Gate.Dependence
import BuildPlan.Proofs.Gate.Evaluation
import BuildPlan.Proofs.Gate.Grammar
import BuildPlan.Proofs.Gate.Leaf
import BuildPlan.Proofs.Gate.Nesting
import BuildPlan.Proofs.Gate.Parsing
import BuildPlan.Proofs.Gate.Part
import BuildPlan.Proofs.Gate.Position
import BuildPlan.Proofs.Gate.Printing
import BuildPlan.Proofs.Gate.Quotation
import BuildPlan.Proofs.Gate.Reach
import BuildPlan.Proofs.Gate.Reading
import BuildPlan.Proofs.Gate.Refactoring
import BuildPlan.Proofs.Gate.Relabelling
import BuildPlan.Proofs.Gate.Spelling
import BuildPlan.Proofs.Outcome
import BuildPlan.Proofs.Placeholder.Body
import BuildPlan.Proofs.Placeholder.Decomposition
import BuildPlan.Proofs.Placeholder.Joining
import BuildPlan.Proofs.Project.Declaration
import BuildPlan.Proofs.Project.Formats
import BuildPlan.Proofs.Project.Gating
import BuildPlan.Proofs.Project.Loading
import BuildPlan.Proofs.Project.Planning
import BuildPlan.Proofs.Project.Splitting
import BuildPlan.Proofs.Project.Warnings
import BuildPlan.Proofs.Resolver.Addressing
import BuildPlan.Proofs.Resolver.Fallback
import BuildPlan.Proofs.Resolver.Halting
import BuildPlan.Proofs.Resolver.Hygiene
import BuildPlan.Proofs.Resolver.Idempotence
import BuildPlan.Proofs.Resolver.Interpolation
import BuildPlan.Proofs.Resolver.Lines
import BuildPlan.Proofs.Resolver.Listing
import BuildPlan.Proofs.Resolver.Naming
import BuildPlan.Proofs.Resolver.Pasting
import BuildPlan.Proofs.Resolver.Rendering
import BuildPlan.Proofs.Store.Assignment
import BuildPlan.Proofs.Store.Growth
import BuildPlan.Proofs.Store.JsonPath
import BuildPlan.Proofs.Store.Keys
import BuildPlan.Proofs.Store.Listing
import BuildPlan.Proofs.Store.Lookup
import BuildPlan.Proofs.Store.Merging
import BuildPlan.Proofs.Store.Override
import BuildPlan.Proofs.Store.Snapshot
import BuildPlan.Proofs.Store.Splitting
import BuildPlan.Resolver.Basic
import BuildPlan.Resolver.Gate
import BuildPlan.Store.Basic
import BuildPlan.Store.Flatten
import BuildPlan.Store.Merge
import BuildPlan.Store.OfJson
import BuildPlan.Store.Path
import BuildPlan.Text.Blank
import BuildPlan.Text.Cut
import BuildPlan.Text.Digit
import BuildPlan.Text.Extending
import BuildPlan.Text.Unassigned
import BuildPlan.Text.Unprintable
