/-!
The events that compiling, building, reading and dispatching report.

Owns:
- the events, their names, and which of them report a failure;
- `Emission`, an event with its fields.

Does not own: severities, and the text of log records.
-/

namespace Facet

inductive Event where
  | filterCompiled
  | rangeMerged
  | filterRejected
  | aggregationsBuilt
  | aggregationsRejected
  | aggregationMissing
  | coercionFailed
  | searchDispatched
  | deleteDispatched
  | engineFailed
deriving DecidableEq, Repr

namespace Event

def name : Event → String
  | .filterCompiled => "FILTER_COMPILED"
  | .rangeMerged => "RANGE_MERGED"
  | .filterRejected => "FILTER_REJECTED"
  | .aggregationsBuilt => "AGGREGATIONS_BUILT"
  | .aggregationsRejected => "AGGREGATIONS_REJECTED"
  | .aggregationMissing => "AGGREGATION_MISSING"
  | .coercionFailed => "VALUE_COERCION_FAILED"
  | .searchDispatched => "SEARCH_DISPATCHED"
  | .deleteDispatched => "DELETE_BY_QUERY_DISPATCHED"
  | .engineFailed => "ENGINE_FAILED"

/-- All events. -/
def all : List Event :=
  [.filterCompiled, .rangeMerged, .filterRejected, .aggregationsBuilt, .aggregationsRejected,
    .aggregationMissing, .coercionFailed, .searchDispatched, .deleteDispatched, .engineFailed]

/-- The event of a name. -/
def ofName? (name : String) : Option Event :=
  all.find? (·.name == name)

/-- Whether an event reports a failure. -/
def isFailure : Event → Bool
  | .filterRejected | .aggregationsRejected | .aggregationMissing | .coercionFailed
  | .engineFailed => true
  | _ => false

end Event

/-- An event with its fields, in the order in which they were given. -/
structure Emission where
  event : Event
  fields : List (String × String)
deriving DecidableEq, Repr

end Facet
