import Facet.Aggregation.Name
import Facet.Aggregation.Node
import Facet.Predicate.Signature
import Facet.Query.Compile

/-!
Aggregation requests from specifications.

Owns:
- the node of each declaration and of each group;
- the level that results from adding declarations one after the other;
- `Spec.build`, which also reports the outcome.

Conditional metrics go into the filter named by the signature of their condition. Metrics
with one condition share a filter; a second condition with the same signature but another
query is refused, as is any repeated name on one level.
-/

namespace Facet

/-! ### Nodes -/

namespace Measure

/-- What the engine computes for a measure of a field. A single value is a term bucket. -/
def operation (options : BuilderOptions) (wire : String) : Measure → Operation
  | .sum => .metric .sum wire
  | .count => .metric .valueCount wire
  | .average => .metric .average wire
  | .min => .metric .min wire
  | .max => .metric .max wire
  | .cardinality => .metric .cardinality wire
  | .stats => .metric .stats wire
  | .first => .terms wire 1
  | .distinct => .terms wire options.termsSize

end Measure

namespace Declaration

/-- The condition that restricts a declaration. -/
def condition : Declaration → Option Predicate
  | .measure _ _ condition => condition
  | .percentiles _ _ condition => condition
  | .topHits _ _ _ => none

/-- The wire form of a sort order. -/
def sortWire : Option (FieldExpr × Direction) → Except Error (Option (String × Direction))
  | none => .ok none
  | some (field, direction) => do
      return some (← field.wire, direction)

/-- The node of a declaration, without its condition. -/
def node (options : BuilderOptions) : Declaration → Except Error Node
  | .measure kind source _ => do
      let wire ← source.wire
      return .leaf (Target.metric (.measure kind) wire).name (kind.operation options wire)
  | .percentiles source percents _ => do
      let wire ← source.wire
      let percents := if percents.isEmpty then options.defaultPercents else percents
      return .leaf (Target.metric .percentiles wire).name (.percentiles wire percents)
  | .topHits size sort fields => do
      let includes ← fields.mapM FieldExpr.wire
      let order ← sortWire sort
      return .leaf (Target.topHits order).name (.topHits size order includes)

end Declaration

namespace GroupKey

/-- The node of a group, without what is grouped. -/
def node (options : BuilderOptions) : GroupKey → Except Error Node
  | .field source => do
      let wire ← source.wire
      return .leaf (Target.terms wire).name (.terms wire options.termsSize)
  | .name wire => .ok (.leaf (Target.terms wire).name (.terms wire options.termsSize))
  | .histogram source interval => do
      let wire ← source.wire
      return .leaf (Target.histogram wire).name (.histogram wire interval)
  | .dateHistogram source interval => do
      let wire ← source.wire
      return .leaf (Target.dateHistogram wire).name (.dateHistogram wire interval)

end GroupKey

/-! ### Levels -/

namespace Node

/-- Adds a node to a level in which its name is new. -/
def insertUnique (level : List Node) (node : Node) : Except Error (List Node) :=
  if level.any (·.name == node.name) then
    .error (.duplicateAggregation node.name)
  else
    .ok (level ++ [node])

/-- Adds a node to the filter of a signature and query: to the one on the level, or to a new
one at the end. -/
def insertFiltered (signature : String) (query : Query) (node : Node) :
    List Node → Except Error (List Node)
  | [] => .ok [.mk signature (.filter query) [node]]
  | sibling :: rest =>
      if sibling.name = signature then
        match sibling.operation with
        | .filter shared =>
            if shared.same query then do
              return sibling.withChildren (← insertUnique sibling.children node) :: rest
            else
              .error (.duplicateAggregation signature)
        | _ => .error (.duplicateAggregation signature)
      else do
        return sibling :: (← insertFiltered signature query node rest)

end Node

namespace Spec

/-- Adds a declaration to a level. -/
def addDeclaration (options : BuilderOptions) (level : List Node) (declaration : Declaration) :
    Traced (List Node) := do
  let node ← declaration.node options
  match declaration.condition with
  | none => Node.insertUnique level node
  | some condition =>
      let signature ← condition.signature
      let query ← condition.compile options.compiler
      Node.insertFiltered signature query node level

mutual

/-- Adds an entry to a level; what is grouped makes a level of its own. -/
def addEntry (options : BuilderOptions) (level : List Node) : Entry → Traced (List Node)
  | .metric declaration => addDeclaration options level declaration
  | .group key inner => do
      let node ← key.node options
      let children ← addEntries options [] inner
      Node.insertUnique level (node.withChildren children)

/-- Adds the entries of a specification to a level, in order. -/
def addEntries (options : BuilderOptions) (level : List Node) : List Entry → Traced (List Node)
  | [] => pure level
  | entry :: rest => do
      let extended ← addEntry options level entry
      addEntries options extended rest

end

/-- The request of a specification. Any declaration without a node fails the whole. -/
def build (options : BuilderOptions) (spec : Spec) : Traced Aggregations :=
  (Aggregations.mk <$> addEntries options [] spec.entries).conclude
    (fun built => ⟨.aggregationsBuilt, [("top_level", toString built.size)]⟩)
    (fun error => ⟨.aggregationsRejected, [("code", error.code)]⟩)

end Spec

end Facet
