import Facet.Aggregation.Spec
import Facet.Query.Basic

/-!
Aggregation requests: trees of named nodes.

Owns:
- the operations of nodes, and the nodes;
- look-up of nodes by name;
- the JSON form, in which a node's own body is followed by its children.

Does not own: the names, and how requests come from specifications.
-/

namespace Facet

/-! ### Operations -/

/-- The operations that the engine computes from the values of one field. -/
inductive Metric where
  | sum
  | average
  | min
  | max
  | valueCount
  | cardinality
  | stats
deriving DecidableEq, Repr

/-- The engine's word for a metric. -/
def Metric.keyword : Metric → String
  | .sum => "sum"
  | .average => "avg"
  | .min => "min"
  | .max => "max"
  | .valueCount => "value_count"
  | .cardinality => "cardinality"
  | .stats => "stats"

/-- The engine's word for a direction. -/
def Direction.keyword : Direction → String
  | .ascending => "asc"
  | .descending => "desc"

/-- What a node computes. -/
inductive Operation where
  | metric (metric : Metric) (field : String)
  | percentiles (field : String) (percents : List Double)
  | terms (field : String) (size : Nat)
  | histogram (field : String) (interval : Double)
  | dateHistogram (field : String) (interval : CalendarInterval)
  | filter (query : Query)
  | topHits (size : Nat) (sort : Option (String × Direction)) (includes : List String)
deriving Repr

namespace Operation

/-- The sort order of top hits as a member of their body. -/
def sortMember : Option (String × Direction) → Members
  | none => []
  | some (field, direction) =>
      [("sort", .array [.object [(field, .object [("order", .string direction.keyword)])]])]

/-- The projection of top hits as a member of their body; an empty one is left out. -/
def sourceMember (includes : List String) : Members :=
  if includes.isEmpty then []
  else [("_source", .object [("includes", .ofStrings includes)])]

/-- The member of a node's body that tells the operation. -/
def member : Operation → String × Json
  | .metric kind field => (kind.keyword, .object [("field", .string field)])
  | .percentiles field percents =>
      ("percentiles",
        .object [("field", .string field), ("percents", .array (percents.map Json.ofDouble))])
  | .terms field size =>
      ("terms", .object [("field", .string field), ("size", .ofNat size)])
  | .histogram field interval =>
      ("histogram", .object [("field", .string field), ("interval", .ofDouble interval)])
  | .dateHistogram field interval =>
      ("date_histogram",
        .object [("field", .string field), ("calendar_interval", .string interval.name)])
  | .filter query => ("filter", query.toJson)
  | .topHits size sort includes =>
      ("top_hits", .object (("size", .ofNat size) :: sortMember sort ++ sourceMember includes))

end Operation

/-! ### Nodes -/

/-- A named aggregation with the aggregations inside it. -/
inductive Node where
  | mk (name : String) (operation : Operation) (children : List Node)
deriving Repr

namespace Node

def name : Node → String
  | .mk name _ _ => name

def operation : Node → Operation
  | .mk _ operation _ => operation

def children : Node → List Node
  | .mk _ _ children => children

/-- A node without children. -/
def leaf (name : String) (operation : Operation) : Node :=
  .mk name operation []

def withChildren (node : Node) (children : List Node) : Node :=
  .mk node.name node.operation children

/-- The node of a name among siblings. -/
def find? (nodes : List Node) (name : String) : Option Node :=
  nodes.find? (·.name == name)

/-- The node at the end of a path of names. -/
def descend? (nodes : List Node) : List String → Option Node
  | [] => none
  | [name] => find? nodes name
  | name :: rest => (find? nodes name).bind fun node => descend? node.children rest

/-- The children as a member of a node's body; no children have none. -/
def childrenMember (children : Members) : Members :=
  if children.isEmpty then [] else [("aggs", .object children)]

mutual

/-- The body of a node. -/
def toJson : Node → Json
  | .mk _ operation children =>
      .object (operation.member :: childrenMember (Members.ofList (membersOf children)))

/-- The nodes by name. -/
def membersOf : List Node → List (String × Json)
  | [] => []
  | node :: nodes => (node.name, toJson node) :: membersOf nodes

end

end Node

/-! ### Requests -/

/-- A complete aggregation request. -/
structure Aggregations where
  nodes : List Node
deriving Repr

namespace Aggregations

def empty : Aggregations := ⟨[]⟩

def names (aggregations : Aggregations) : List String :=
  aggregations.nodes.map Node.name

def isEmpty (aggregations : Aggregations) : Bool :=
  aggregations.nodes.isEmpty

def size (aggregations : Aggregations) : Nat :=
  aggregations.nodes.length

/-- The JSON form: an object with one member for each name. -/
def toJson (aggregations : Aggregations) : Json :=
  .object (Members.ofList (Node.membersOf aggregations.nodes))

end Aggregations

end Facet
