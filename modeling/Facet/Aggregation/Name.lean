import Facet.Aggregation.Spec
import Facet.Text.Case
import Facet.Text.Dotted

/-!
Names of aggregations. A request is built and a result is read under the same names, which
depend only on what is aggregated.

Owns:
- `Target`, what a name is given to;
- `Target.name`: a tag and the field in capitalised words for metrics and histograms, and the
  field itself for groups;
- `Address`, a name together with the filter that it is found in.
-/

namespace Facet

def Measure.tag : Measure → String
  | .sum => "Sum"
  | .count => "Count"
  | .average => "Average"
  | .min => "Min"
  | .max => "Max"
  | .cardinality => "Cardinality"
  | .stats => "Stats"
  | .first => "First"
  | .distinct => "Distinct"

def Direction.tag : Direction → String
  | .ascending => "Asc"
  | .descending => "Desc"

/-- The kinds of metrics that have a name. -/
inductive MetricKind where
  | measure (measure : Measure)
  | percentiles
  | topHits
deriving DecidableEq, Repr

def MetricKind.tag : MetricKind → String
  | .measure kind => kind.tag
  | .percentiles => "Percentile"
  | .topHits => "TopHits"

/-- A dotted name in capitalised words: the segments begin with upper-case letters, and the
points are left out. -/
def pascal (wire : String) : String :=
  String.ofList ((Text.Dotted.split wire.toList).flatMap Text.upperFirst)

/-- What a name is given to. Fields are dotted names. -/
inductive Target where
  | metric (kind : MetricKind) (field : String)
  | topHits (sort : Option (String × Direction))
  | terms (field : String)
  | histogram (field : String)
  | dateHistogram (field : String)
deriving DecidableEq, Repr

def Target.name : Target → String
  | .metric kind field => kind.tag ++ pascal field
  | .topHits none => MetricKind.topHits.tag
  | .topHits (some (field, direction)) => MetricKind.topHits.tag ++ pascal field ++ direction.tag
  | .terms field => field
  | .histogram field => "Histogram" ++ pascal field
  | .dateHistogram field => "DateHistogram" ++ pascal field

/-- Where an aggregation is found: under its name, in the filter of its condition if it has
one. -/
structure Address where
  filter : Option String
  name : String
deriving DecidableEq, Repr

/-- The address of a target under the signature of a condition. -/
def Target.address (target : Target) (signature : Option String) : Address :=
  ⟨signature, target.name⟩

end Facet
