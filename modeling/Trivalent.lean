import Trivalent.Arguments
import Trivalent.CommandLine
import Trivalent.Configuration
import Trivalent.Configuration.Declaration
import Trivalent.Configuration.Objects
import Trivalent.Configuration.Reading
import Trivalent.DataType
import Trivalent.Decimal.Layout
import Trivalent.Decimal.Shortest
import Trivalent.Declaration
import Trivalent.Dictionary
import Trivalent.Document
import Trivalent.Document.Format
import Trivalent.Document.Reading
import Trivalent.Document.Resolution
import Trivalent.Double
import Trivalent.Evaluation
import Trivalent.Evaluation.Action
import Trivalent.Evaluation.Calculating
import Trivalent.Evaluation.Comparing
import Trivalent.Evaluation.Error
import Trivalent.Evaluation.Host
import Trivalent.Evaluation.Invoking
import Trivalent.Expression
import Trivalent.Expression.Binding
import Trivalent.Expression.Equality
import Trivalent.Interval
import Trivalent.Json
import Trivalent.Json.Draft
import Trivalent.Json.Fault
import Trivalent.Json.Lexeme
import Trivalent.Json.Numeral
import Trivalent.Json.Text
import Trivalent.Literal
import Trivalent.Main
import Trivalent.Operator
import Trivalent.Proofs.Action.Congruence
import Trivalent.Proofs.Action.Course
import Trivalent.Proofs.Action.Parallel
import Trivalent.Proofs.Action.Steady
import Trivalent.Proofs.Calculating.Integer
import Trivalent.Proofs.Comparing.Coherence
import Trivalent.Proofs.Comparing.Numbers
import Trivalent.Proofs.Configuration.Sorted
import Trivalent.Proofs.Configuration.Spelling
import Trivalent.Proofs.Context
import Trivalent.Proofs.Context.Course
import Trivalent.Proofs.Context.Inlining
import Trivalent.Proofs.Context.Propagation
import Trivalent.Proofs.Document.Extension
import Trivalent.Proofs.Document.Named
import Trivalent.Proofs.Document.Negation
import Trivalent.Proofs.Document.Spelling
import Trivalent.Proofs.Double.Order
import Trivalent.Proofs.Double.Rounding
import Trivalent.Proofs.Evaluation.Agreement
import Trivalent.Proofs.Evaluation.Bound
import Trivalent.Proofs.Evaluation.Boundary
import Trivalent.Proofs.Evaluation.Congruence
import Trivalent.Proofs.Evaluation.Ending
import Trivalent.Proofs.Evaluation.Mentioned
import Trivalent.Proofs.Evaluation.Path
import Trivalent.Proofs.Evaluation.Pending
import Trivalent.Proofs.Evaluation.Readapted
import Trivalent.Proofs.Evaluation.Received
import Trivalent.Proofs.Evaluation.Steady
import Trivalent.Proofs.Evaluation.Walk
import Trivalent.Proofs.Expression.Binding
import Trivalent.Proofs.Expression.Leading
import Trivalent.Proofs.Expression.Nodes
import Trivalent.Proofs.Interval
import Trivalent.Proofs.Interval.Written
import Trivalent.Proofs.Invoking.Characters
import Trivalent.Proofs.Invoking.Search
import Trivalent.Proofs.Json.Record
import Trivalent.Proofs.Logic.Duality
import Trivalent.Proofs.Logic.Kleene
import Trivalent.Proofs.Logic.Negation
import Trivalent.Proofs.Logic.Nesting
import Trivalent.Proofs.Logic.Predicate
import Trivalent.Proofs.Logic.Series
import Trivalent.Proofs.Logic.Several
import Trivalent.Proofs.Outcome
import Trivalent.Proofs.Registry.Building
import Trivalent.Proofs.Registry.Configured
import Trivalent.Proofs.Registry.Declaring
import Trivalent.Proofs.Registry.Denoting
import Trivalent.Proofs.Registry.Entries
import Trivalent.Proofs.Registry.Equipped
import Trivalent.Proofs.Registry.Operations
import Trivalent.Proofs.Registry.Owned
import Trivalent.Proofs.Registry.Ranking
import Trivalent.Proofs.Registry.Regular
import Trivalent.Proofs.Registry.Rounds
import Trivalent.Proofs.TimeOfDay
import Trivalent.Proofs.TimeOfDay.Shifting
import Trivalent.Proofs.TimeOfDay.Written
import Trivalent.Proofs.Typing.Arrays
import Trivalent.Proofs.Typing.Capabilities
import Trivalent.Proofs.Typing.Collections
import Trivalent.Proofs.Typing.Conformance
import Trivalent.Proofs.Typing.Equality
import Trivalent.Proofs.Typing.Functions
import Trivalent.Proofs.Typing.Hosted
import Trivalent.Proofs.Typing.Nodes
import Trivalent.Proofs.Typing.Operations
import Trivalent.Proofs.Typing.Resolved
import Trivalent.Proofs.Typing.RoundTrip
import Trivalent.Proofs.Typing.Soundness
import Trivalent.Proofs.Typing.WellFormed
import Trivalent.Proofs.Value
import Trivalent.Proofs.Value.Json
import Trivalent.Registry
import Trivalent.Roots
import Trivalent.Standard
import Trivalent.Text.Blank
import Trivalent.Text.Concealed
import Trivalent.Text.Quoted
import Trivalent.Text.Upper
import Trivalent.TimeOfDay
import Trivalent.TimeOfDay.Reading
import Trivalent.Value
import Trivalent.Value.Json
import Trivalent.Value.Text
import Trivalent.Word
