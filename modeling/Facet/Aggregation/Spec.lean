import Facet.Double.Basic
import Facet.Predicate.Basic

/-!
Declarations of aggregations, in the order in which they are made.

Owns:
- metrics of a field, percentiles, top hits, and what documents are grouped by;
- `Spec`, and the steps that it is made of.

Grouping takes everything declared so far one level deeper, so the grouping declared last is
outermost.
-/

namespace Facet

/-- Metrics that are computed from the values of one field alone. -/
inductive Measure where
  | sum
  | count
  | average
  | min
  | max
  | cardinality
  | stats
  | first
  | distinct
deriving DecidableEq, Repr

inductive Direction where
  | ascending
  | descending
deriving DecidableEq, Repr

/-- The buckets of date histograms. -/
inductive CalendarInterval where
  | minute
  | hour
  | day
  | week
  | month
  | quarter
  | year
deriving DecidableEq, Repr

def CalendarInterval.name : CalendarInterval → String
  | .minute => "minute"
  | .hour => "hour"
  | .day => "day"
  | .week => "week"
  | .month => "month"
  | .quarter => "quarter"
  | .year => "year"

/-- One declaration. Measures and percentiles may be restricted by a condition; no percents
stand for the percents of the options, and no fields stand for whole documents. -/
inductive Declaration where
  | measure (measure : Measure) (field : FieldExpr) (condition : Option Predicate)
  | percentiles (field : FieldExpr) (percents : List Double) (condition : Option Predicate)
  | topHits (size : Nat) (sort : Option (FieldExpr × Direction)) (fields : List FieldExpr)
deriving Repr

/-- What documents are grouped by: a field, a name of the engine, or intervals of a field. -/
inductive GroupKey where
  | field (field : FieldExpr)
  | name (name : String)
  | histogram (field : FieldExpr) (interval : Double)
  | dateHistogram (field : FieldExpr) (interval : CalendarInterval)
deriving Repr

/-- One entry of a level. -/
inductive Entry where
  | metric (declaration : Declaration)
  | group (key : GroupKey) (inner : List Entry)
deriving Repr

/-- The declarations of one level, in order. -/
structure Spec where
  entries : List Entry
deriving Repr

namespace Spec

def empty : Spec := ⟨[]⟩

def isEmpty (spec : Spec) : Bool :=
  spec.entries.isEmpty

/-- Adds a declaration. -/
def declare (spec : Spec) (declaration : Declaration) : Spec :=
  ⟨spec.entries ++ [.metric declaration]⟩

/-- Groups everything declared so far. -/
def groupBy (spec : Spec) (key : GroupKey) : Spec :=
  ⟨[.group key spec.entries]⟩

/-- Groups everything declared so far by names of the engine, the first one outermost. -/
def groupByNames (spec : Spec) (names : List String) : Spec :=
  names.reverse.foldl (fun inner name => inner.groupBy (.name name)) spec

/-- One step of declaring. -/
inductive Step where
  | declare (declaration : Declaration)
  | group (key : GroupKey)
  | groupNames (names : List String)
deriving Repr

def apply (spec : Spec) : Step → Spec
  | .declare declaration => spec.declare declaration
  | .group key => spec.groupBy key
  | .groupNames names => spec.groupByNames names

/-- The specification that some steps make. -/
def ofSteps (steps : List Step) : Spec :=
  steps.foldl apply empty

end Spec

end Facet
