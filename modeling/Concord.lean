import Concord.Assertion.Basic
import Concord.Assertion.Expression
import Concord.Assertion.Extract
import Concord.Assertion.Literal
import Concord.Batch.Basic
import Concord.Batch.Report
import Concord.Batch.Run
import Concord.Batch.Work
import Concord.Catalog
import Concord.Code.Scan
import Concord.Code.Split
import Concord.Command.Arguments
import Concord.Command.Moment
import Concord.Command.Run
import Concord.Config
import Concord.Config.Discover
import Concord.Digest.Sha256
import Concord.Equivalence.Alignment
import Concord.Equivalence.AssertionMatch
import Concord.Equivalence.EditDistance
import Concord.Equivalence.Report
import Concord.Equivalence.Score
import Concord.Equivalence.Similarity
import Concord.Equivalence.Verdict
import Concord.Failure
import Concord.FileTree
import Concord.Glob
import Concord.Guard
import Concord.Json.Decode
import Concord.Json.Reader
import Concord.Json.Value
import Concord.Json.Writer
import Concord.Main
import Concord.Mapping.Entity
import Concord.Mapping.Step
import Concord.Naming
import Concord.Number.Binary
import Concord.Number.Fixed
import Concord.Number.Nearest
import Concord.Number.Read
import Concord.Number.Shortest
import Concord.Order.KeyMap
import Concord.Order.NameSet
import Concord.Path
import Concord.Pattern.Detect
import Concord.Pattern.Tag
import Concord.Pattern.Usage
import Concord.Proofs.Assertion.Identified
import Concord.Proofs.Assertion.Negation
import Concord.Proofs.Assertion.Quoted
import Concord.Proofs.Assertion.Reversal
import Concord.Proofs.Assertion.Spelling
import Concord.Proofs.Assertion.Truth
import Concord.Proofs.Batch.Account
import Concord.Proofs.Batch.Execution
import Concord.Proofs.Batch.Isolation
import Concord.Proofs.Batch.Placewise
import Concord.Proofs.Batch.Work
import Concord.Proofs.Catalog.Priority
import Concord.Proofs.Code.Atomic
import Concord.Proofs.Code.Closed
import Concord.Proofs.Code.Compose
import Concord.Proofs.Code.Literal
import Concord.Proofs.Code.Operand
import Concord.Proofs.Code.Partner
import Concord.Proofs.Code.Settled
import Concord.Proofs.Code.Split
import Concord.Proofs.Code.Top
import Concord.Proofs.Equivalence.Alignment
import Concord.Proofs.Equivalence.AssertionMatch
import Concord.Proofs.Equivalence.Content
import Concord.Proofs.Equivalence.EditDistance
import Concord.Proofs.Equivalence.Integer
import Concord.Proofs.Equivalence.Matching
import Concord.Proofs.Equivalence.Placement
import Concord.Proofs.Equivalence.Report
import Concord.Proofs.Equivalence.Score
import Concord.Proofs.Equivalence.SelfComparison
import Concord.Proofs.Equivalence.Similarity
import Concord.Proofs.Equivalence.Target
import Concord.Proofs.Equivalence.Thinning
import Concord.Proofs.Guard.Comparison
import Concord.Proofs.Guard.Condition
import Concord.Proofs.Guard.Inversion
import Concord.Proofs.Guard.Operators
import Concord.Proofs.Guard.Receiver
import Concord.Proofs.Json.Record
import Concord.Proofs.Json.Scalar
import Concord.Proofs.Json.Spelling
import Concord.Proofs.Mapping.Agreement
import Concord.Proofs.Mapping.Classification
import Concord.Proofs.Mapping.Coverage
import Concord.Proofs.Mapping.Decoration
import Concord.Proofs.Mapping.Refusal
import Concord.Proofs.Mapping.Tags
import Concord.Proofs.Mapping.Tree
import Concord.Proofs.Mapping.WellFormed
import Concord.Proofs.Number.Equality
import Concord.Proofs.Number.Read
import Concord.Proofs.Number.Significant
import Concord.Proofs.Number.UnitInterval
import Concord.Proofs.Order.KeyMap
import Concord.Proofs.Order.NameSet
import Concord.Proofs.Scenario.Acceptance
import Concord.Proofs.Scenario.Check
import Concord.Proofs.Scenario.Conservation
import Concord.Proofs.Scenario.Storage
import Concord.Proofs.Scenario.Transition
import Concord.Proofs.Source.Storage
import Concord.Proofs.Source.Validity
import Concord.Proofs.Spec.Document
import Concord.Proofs.Spec.Nullability
import Concord.Proofs.Spec.Restoration
import Concord.Proofs.Statement.Arms
import Concord.Proofs.Statement.Block
import Concord.Proofs.Statement.Braced
import Concord.Proofs.Statement.Compound
import Concord.Proofs.Statement.Gather
import Concord.Proofs.Statement.Indented
import Concord.Proofs.Statement.Inside
import Concord.Proofs.Statement.Nested
import Concord.Proofs.Statement.Printed
import Concord.Proofs.Statement.Script
import Concord.Proofs.Statement.Simple
import Concord.Proofs.Statement.Tree
import Concord.Proofs.Text.Case
import Concord.Proofs.Text.Cut
import Concord.Proofs.Text.Lines
import Concord.Proofs.Text.Sublist
import Concord.Proofs.Text.Trim
import Concord.Proofs.Typing.Alternative
import Concord.Proofs.Typing.Expression
import Concord.Scenario.Basic
import Concord.Scenario.Build
import Concord.Scenario.Calls
import Concord.Scenario.Suite
import Concord.Schema
import Concord.Source.Braced.Basic
import Concord.Source.Braced.Expression
import Concord.Source.Braced.Item
import Concord.Source.Braced.Lexer
import Concord.Source.Braced.Model
import Concord.Source.Braced.Type
import Concord.Source.Entity
import Concord.Source.Fault
import Concord.Source.Format
import Concord.Source.Fragment
import Concord.Source.Grammar
import Concord.Source.Indented.Expression
import Concord.Source.Indented.Lexer
import Concord.Source.Indented.Model
import Concord.Source.Indented.Statement
import Concord.Source.Indented.Tests
import Concord.Source.Registry
import Concord.Source.Suite
import Concord.Source.Token
import Concord.Source.Unit
import Concord.Spec.Basic
import Concord.Spec.Document
import Concord.Spec.FieldType
import Concord.Spec.Step
import Concord.Statement.Braced
import Concord.Statement.Dialect
import Concord.Statement.Indented
import Concord.Statement.Shape
import Concord.Text.Blank
import Concord.Text.Case
import Concord.Text.Cut
import Concord.Text.Letter
import Concord.Text.Lines
import Concord.Text.Table.Case
import Concord.Text.Table.Letter
import Concord.Text.Utf8
import Concord.Typing.Peel
import Concord.Walk
