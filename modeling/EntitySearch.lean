import EntitySearch.Main
import EntitySearch.Scalar.Untyped
import EntitySearch.Proofs.Except
import EntitySearch.Proofs.Scalar
import EntitySearch.Proofs.Json.DistinctKeys
import EntitySearch.Proofs.Json.Written
import EntitySearch.Proofs.Schema.Lookup
import EntitySearch.Proofs.Predicate.Kleene
import EntitySearch.Proofs.Cursor.Stack
import EntitySearch.Proofs.Search.Reads
import EntitySearch.Proofs.Search.Query
import EntitySearch.Proofs.Search.SchemaForms
import EntitySearch.Proofs.Search.Fits
import EntitySearch.Proofs.Search.FirstError
import EntitySearch.Proofs.Search.RoundTrip
import EntitySearch.Proofs.Search.Tests
import EntitySearch.Proofs.Search.Compiled
import EntitySearch.Proofs.Search.Meaning
import EntitySearch.Proofs.Record.Typed
import EntitySearch.Proofs.Engine.Resolved
import EntitySearch.Proofs.Engine.Failures
import EntitySearch.Proofs.Engine.Answers
import EntitySearch.Proofs.Search.Derivation
import EntitySearch.Proofs.Engine.HiddenColumns
import EntitySearch.Proofs.Engine.HiddenFields
import EntitySearch.Proofs.Search.Violations
import EntitySearch.Proofs.Search.Operands
import EntitySearch.Proofs.Search.Blame
import EntitySearch.Proofs.Cursor.Calls
import EntitySearch.Proofs.Json.MemberOrder
import EntitySearch.Proofs.Number.Finite
import EntitySearch.Proofs.Search.Collapse
import EntitySearch.Proofs.Search.NormalForm
import EntitySearch.Proofs.Engine.Negation
import EntitySearch.Proofs.Engine.Growth
import EntitySearch.Proofs.Predicate.Completion
import EntitySearch.Proofs.Search.DepthLimit
import EntitySearch.Proofs.Search.Dispatch
import EntitySearch.Proofs.Search.WishOrder
import EntitySearch.Proofs.Predicate.Sequential
import EntitySearch.Proofs.Predicate.Shuffled
import EntitySearch.Proofs.Predicate.Filling
import EntitySearch.Proofs.Search.Shuffled
import EntitySearch.Proofs.Engine.OperandOrder
import EntitySearch.Proofs.Command.Stages
import EntitySearch.Proofs.Command.Outcome
import EntitySearch.Proofs.Search.Reordered
import EntitySearch.Proofs.Engine.MemberOrder
import EntitySearch.Proofs.Cursor.Conjunction
import EntitySearch.Proofs.Record.Loading
import EntitySearch.Proofs.Search.SingleOperands
import EntitySearch.Proofs.Search.Rendered
import EntitySearch.Proofs.Schema.Construction
import EntitySearch.Proofs.Schema.RoundTrip
import EntitySearch.Proofs.Predicate.Equality
import EntitySearch.Proofs.Predicate.Readable
import EntitySearch.Proofs.Number.Reading
import EntitySearch.Proofs.Number.Rounding
