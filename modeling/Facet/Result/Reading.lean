import Facet.Aggregation.Name
import Facet.Json.Fields
import Facet.Predicate.Signature
import Facet.Result.Tree
import Facet.Result.Value

/-!
Typed reading of result trees by what was declared.

Owns:
- the address of a declared metric: its name, below the filter of its condition;
- metric values, statistics, percentiles, term values, buckets, hits, and document counts.

Every reader computes names from the fields and conditions of the declaration, as the request
did.
-/

namespace Facet

/-! ### Results with parts -/

/-- The values of a statistics result. The bounds and the mean are absent if no document had a
value. -/
structure Stats where
  count : Nat
  min : Option Double
  max : Option Double
  average : Option Double
  sum : Double
deriving DecidableEq, Repr

namespace Stats

def ofJson? (value : Json) : Option Stats := do
  let fields ← Json.Fields.ofJson? value
  let optional := Json.asOptional? Json.asDouble?
  let (count, fields) ← fields.take "count" Json.asNat? none none
  let (min, fields) ← fields.take "min" optional (some none) none
  let (max, fields) ← fields.take "max" optional (some none) none
  let (average, fields) ← fields.take "avg" optional (some none) none
  let (sum, fields) ←
    fields.take "sum" Json.asDouble? (some (.zero false)) (some (.zero false))
  fields.finish ⟨count, min, max, average, sum⟩

end Stats

/-- One entry of a percentiles result. -/
structure Percentile where
  percent : Double
  value : Option Double
deriving DecidableEq, Repr

/-! ### Conversion -/

/-- Fails with a value that does not convert, and reports it. -/
def Traced.refuse {α : Type} (name found target : String) : Traced α :=
  .failWith .coercionFailed [("name", name)] (.coercion name found target)

/-- Converts the value of a metric. -/
def ValueReader.convert {α : Type} (reader : ValueReader α) (name : String) (value : Json) :
    Traced α :=
  match reader.read value with
  | some converted => pure converted
  | none => .refuse name value.render reader.target

namespace Json

/-- The sources of some hits; a hit without a source has null. -/
def sources {α : Type} (decode : Json → Option α) (hits : List Json) : Except Error (List α) :=
  hits.mapM fun hit =>
    match decode ((hit.get? "_source").getD .null) with
    | some source => .ok source
    | none => .error .undecodable

/-- The hits inside a result or response. -/
def hits? (body : Json) : Option (List Json) :=
  ((body.get? "hits").bind (·.get? "hits")).bind asArray?

end Json

/-! ### Metrics -/

/-- The address of a metric of a field. -/
def MetricKind.address (kind : MetricKind) (field : FieldExpr) (condition : Option Predicate) :
    Except Error Address := do
  let wire ← field.wire
  match condition with
  | none => return (Target.metric kind wire).address none
  | some predicate =>
      let signature ← predicate.signature
      return (Target.metric kind wire).address (some signature)

namespace Tree

section

variable {α : Type}

/-- The result at an address. -/
def locate (tree : Tree) (address : Address) : Traced Json :=
  match address.filter with
  | none => tree.lookup address.name
  | some filter => do
      let body ← tree.lookup filter
      let members ← body.results filter
      Members.lookup members address.name

/-- The value of a metric. A result without a value has null. -/
def value (tree : Tree) (measure : Measure) (reader : ValueReader α) (field : FieldExpr)
    (condition : Option Predicate) : Traced α := do
  let address ← (MetricKind.measure measure).address field condition
  let body ← tree.locate address
  reader.convert address.name ((body.get? "value").getD .null)

/-- The statistics of a field. -/
def stats (tree : Tree) (field : FieldExpr) (condition : Option Predicate) : Traced Stats := do
  let address ← (MetricKind.measure .stats).address field condition
  let body ← tree.locate address
  match Stats.ofJson? body with
  | some stats => return stats
  | none => Traced.ofExcept (.error .undecodable)

/-- One entry of a percentiles result. -/
def percentile (name : String) (entry : String × Json) : Traced Percentile :=
  match Double.ofChars? entry.1.toList with
  | none => .refuse name entry.1 "f64"
  | some percent => do
      return ⟨percent, ← ValueReader.double.optional.convert name entry.2⟩

/-- The percentiles of a field, in the engine's order. -/
def percentiles (tree : Tree) (field : FieldExpr) (condition : Option Predicate) :
    Traced (List Percentile) := do
  let address ← MetricKind.percentiles.address field condition
  let body ← tree.locate address
  match (body.get? "values").bind Json.asObject? with
  | none => .refuse address.name body.render "percentiles"
  | some entries => entries.mapM (percentile address.name)

/-- The one value kept of a field, if any document had one. -/
def first (tree : Tree) (reader : KeyReader α) (field : FieldExpr)
    (condition : Option Predicate) : Traced (Option α) := do
  let address ← (MetricKind.measure .first).address field condition
  let body ← tree.locate address
  let buckets ← body.buckets address.name
  match buckets with
  | [] => return none
  | bucket :: _ => return some (← bucket.key.read reader address.name)

/-- The distinct values of a field, in the engine's order. -/
def distinct (tree : Tree) (reader : KeyReader α) (field : FieldExpr) : Traced (List α) := do
  let address ← (MetricKind.measure .distinct).address field none
  let body ← tree.locate address
  let buckets ← body.buckets address.name
  buckets.mapM fun bucket => bucket.key.read reader address.name

/-! ### Buckets, hits and counts -/

/-- The buckets of a grouping by a field. -/
def groupBy (tree : Tree) (field : FieldExpr) : Traced (List Bucket) := do
  let wire ← field.wire
  tree.buckets (Target.terms wire).name

/-- The buckets of a grouping by a name of the engine. -/
def groupByName (tree : Tree) (name : String) : Traced (List Bucket) :=
  tree.buckets (Target.terms name).name

def histogram (tree : Tree) (field : FieldExpr) : Traced (List Bucket) := do
  let wire ← field.wire
  tree.buckets (Target.histogram wire).name

def dateHistogram (tree : Tree) (field : FieldExpr) : Traced (List Bucket) := do
  let wire ← field.wire
  tree.buckets (Target.dateHistogram wire).name

/-- The sources of the top hits under a name. -/
def hitsNamed (tree : Tree) (decode : Json → Option α) (name : String) : Traced (List α) := do
  let body ← tree.lookup name
  match body.hits? with
  | none => .refuse name body.render "hits"
  | some hits => Json.sources decode hits

/-- The sources of unsorted top hits. -/
def topHits (tree : Tree) (decode : Json → Option α) : Traced (List α) :=
  tree.hitsNamed decode (Target.topHits none).name

/-- The sources of sorted top hits. -/
def sortedTopHits (tree : Tree) (decode : Json → Option α) (sort : FieldExpr)
    (direction : Direction) : Traced (List α) := do
  let wire ← sort.wire
  tree.hitsNamed decode (Target.topHits (some (wire, direction))).name

/-- The number of documents that satisfy the condition of a conditional metric. -/
def filterCount (tree : Tree) (condition : Predicate) : Traced Nat := do
  let signature ← condition.signature
  let body ← tree.lookup signature
  match (body.get? "doc_count").bind Json.asNat? with
  | some count => return count
  | none => .refuse signature body.render "doc_count"

end

end Tree

end Facet
