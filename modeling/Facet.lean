import Facet.Aggregation.Build
import Facet.Exchange
import Facet.Json.Parser
import Facet.Log.Record
import Facet.Predicate.Meaning
import Facet.Proofs.Outcome
import Facet.Proofs.Query.Lowering
import Facet.Proofs.Predicate.OneValue
import Facet.Proofs.Query.Correctness
import Facet.Proofs.Aggregation.Level
import Facet.Proofs.Predicate.Signature
import Facet.Proofs.Aggregation.Insertion
import Facet.Proofs.Aggregation.Building
import Facet.Proofs.Aggregation.Layout
import Facet.Proofs.Aggregation.Matching
import Facet.Proofs.Aggregation.Reordering
import Facet.Proofs.Aggregation.Characterization
import Facet.Proofs.Aggregation.Naming
import Facet.Proofs.Result.Nodes
import Facet.Proofs.Result.Reach
import Facet.Proofs.Field.Resolution
import Facet.Proofs.Query.Conjunction
import Facet.Proofs.Query.Acceptance
import Facet.Proofs.Query.Refusal
import Facet.Proofs.Query.Merging
import Facet.Proofs.Predicate.Outline
import Facet.Proofs.Predicate.Reading
import Facet.Proofs.Aggregation.Likeness
import Facet.Proofs.Aggregation.Untagged
import Facet.Proofs.Text.Capitals
import Facet.Proofs.Result.Lookup
import Facet.Proofs.Query.Bracketing
import Facet.Proofs.Query.Enclosing
import Facet.Proofs.Aggregation.Chain
import Facet.Proofs.Exchange.Decoding
import Facet.Proofs.Query.WellFormed
import Facet.Proofs.Result.Condition
import Facet.Proofs.Double.Exact
import Facet.Proofs.Double.Rounding
import Facet.Proofs.Text.Integer
import Facet.Proofs.Result.Value
import Facet.Proofs.Result.Key
import Facet.Proofs.Result.Missing
import Facet.Proofs.Double.Range
import Facet.Proofs.Result.Floating
import Facet.Proofs.Aggregation.Accepted
import Facet.Proofs.Field.Restating
import Facet.Proofs.Predicate.Restating
import Facet.Proofs.Aggregation.Restating
import Facet.Proofs.Field.Grammar
import Facet.Proofs.Field.Dotted
import Facet.Proofs.Query.Reporting
import Facet.Proofs.Log.Line
import Facet.Proofs.Predicate.Instants
