import Facet.Json.Fields
import Facet.Proofs.Query.Acceptance
import Facet.Proofs.Query.Decoding
import Facet.Proofs.Result.Nodes

/-!
Aggregations read back from their JSON form.

Owns:
- aggregations up to the difference between ranges of dates and of terms in their filters;
- the reading of operations and of nodes;
- that it recovers aggregations whose nodes are legible: siblings have distinct names, doubles
  are finite, and the ranges of filters tell their kinds.

Does not own: which aggregations are legible.
-/

namespace Facet

/-! ### Members -/

private theorem Members.insert_of_new {members : Members} {name : String}
    (new : name ∉ members.names) (value : Json) :
    members.insert name value = members ++ [(name, value)] := by
  induction members with
  | nil => rfl
  | cons member rest inductionHypothesis =>
      rw [names, List.map_cons, List.mem_cons, not_or] at new
      rw [insert, if_neg (Ne.symm new.1), inductionHypothesis new.2]
      rfl

private theorem Members.foldl_insert_of_nodup {built members : Members}
    (distinct : (built ++ members).names.Nodup) :
    members.foldl (fun built member => insert built member.1 member.2) built =
      built ++ members := by
  induction members generalizing built with
  | nil => exact (List.append_nil built).symm
  | cons member rest inductionHypothesis =>
      rw [List.append_cons] at distinct ⊢
      have new : member.1 ∉ built.names := by
        have first := distinct
        rw [names, List.map_append, List.map_append, List.nodup_append, List.nodup_append] at first
        exact fun taken => first.1.2.2 _ taken _ List.mem_cons_self rfl
      rw [List.foldl_cons, insert_of_new new]
      exact inductionHypothesis distinct

/-- Members of distinct names are all kept, in order. -/
theorem Members.ofList_of_nodup {members : Members} (distinct : members.names.Nodup) :
    ofList members = members :=
  @foldl_insert_of_nodup [] members distinct

/-! ### Words -/

namespace Metric

def all : List Metric :=
  [.sum, .average, .min, .max, .valueCount, .cardinality, .stats]

def ofKeyword? (keyword : String) : Option Metric :=
  all.find? (·.keyword == keyword)

end Metric

namespace CalendarInterval

def all : List CalendarInterval :=
  [.minute, .hour, .day, .week, .month, .quarter, .year]

def ofName? (name : String) : Option CalendarInterval :=
  all.find? (·.name == name)

@[simp] theorem ofName?_name (interval : CalendarInterval) :
    ofName? interval.name = some interval := by
  cases interval <;> decide

end CalendarInterval

namespace Direction

def ofKeyword? : String → Option Direction
  | "asc" => some .ascending
  | "desc" => some .descending
  | _ => none

@[simp] theorem ofKeyword?_keyword (direction : Direction) :
    ofKeyword? direction.keyword = some direction := by
  cases direction <;> rfl

end Direction

/-! ### Operations -/

namespace Operation

/-- The doubles of an operation are finite. -/
def IsFinite : Operation → Prop
  | .percentiles _ percents => ∀ percent ∈ percents, percent.IsFinite
  | .histogram _ interval => interval.IsFinite
  | _ => True

/-- An operation with the ranges of dates and of terms in its filter alike. -/
def unified : Operation → Operation
  | .filter query => .filter query.unified
  | operation => operation

private theorem member_unified (operation : Operation) :
    operation.unified.member = operation.member := by
  cases operation with
  | filter query => rw [unified, member, member, query.toJson_unified]
  | _ => rfl

/-- The text of a member. -/
def text? (body : Json) (name : String) : Option String :=
  (body.get? name).bind Json.asString?

/-- The sort order that top hits have, if it is told. -/
def sortOf? : Option Json → Option (Option (String × Direction))
  | none => some none
  | some (.array [.object [(field, .object [("order", .string keyword)])]]) => do
      return some (field, ← Direction.ofKeyword? keyword)
  | _ => none

/-- The projection that top hits have, if it is told. -/
def includesOf? : Option Json → Option (List String)
  | none => some []
  | some (.object [("includes", includes)]) => Json.asListOf? Json.asString? includes
  | _ => none

/-- The operation of a member of a node's body. -/
def ofMember? : String × Json → Option Operation
  | ("percentiles", body) => do
      return .percentiles (← text? body "field")
        (← (body.get? "percents").bind (Json.asListOf? Json.asDouble?))
  | ("terms", body) => do
      return .terms (← text? body "field") (← (body.get? "size").bind Json.asNat?)
  | ("histogram", body) => do
      return .histogram (← text? body "field") (← (body.get? "interval").bind Json.asDouble?)
  | ("date_histogram", body) => do
      return .dateHistogram (← text? body "field")
        (← (text? body "calendar_interval").bind CalendarInterval.ofName?)
  | ("filter", body) => do
      return .filter (← Query.ofJson? body)
  | ("top_hits", body) => do
      return .topHits (← (body.get? "size").bind Json.asNat?) (← sortOf? (body.get? "sort"))
        (← includesOf? (body.get? "_source"))
  | (keyword, body) => do
      return .metric (← Metric.ofKeyword? keyword) (← text? body "field")

end Operation

theorem Json.asListOf?_map {α : Type} {read : Json → Option α} {write : α → Json} {row : List α}
    (reads : ∀ value ∈ row, read (write value) = some value) :
    Json.asListOf? read (.array (row.map write)) = some row := by
  show (row.map write).mapM read = some row
  induction row with
  | nil => rfl
  | cons value rest inductionHypothesis =>
      rw [List.forall_mem_cons] at reads
      rw [List.map_cons, List.mapM_cons, reads.1, inductionHypothesis reads.2]
      rfl

@[simp] theorem Json.asListOf?_ofStrings (texts : List String) :
    Json.asListOf? Json.asString? (.ofStrings texts) = some texts :=
  Json.asListOf?_map fun _ _ => rfl

private theorem Json.asDouble?_ofDouble {value : Double} (finite : value.IsFinite) :
    (Json.ofDouble value).asDouble? = some value := by
  cases value with
  | finite _ _ _ => rfl
  | _ => cases finite

namespace Operation

private theorem sortOf?_topHits (size : Nat) (sort : Option (String × Direction))
    (includes : List String) :
    sortOf? ((topHits size sort includes).member.2.get? "sort") = some sort := by
  cases sort with
  | none => cases includes <;> rfl
  | some sorting =>
      obtain ⟨field, direction⟩ := sorting
      show (do return some (field, ← Direction.ofKeyword? direction.keyword)) = _
      rw [direction.ofKeyword?_keyword]
      rfl

private theorem includesOf?_topHits (size : Nat) (sort : Option (String × Direction))
    (includes : List String) :
    includesOf? ((topHits size sort includes).member.2.get? "_source") = some includes := by
  cases includes with
  | nil => cases sort <;> rfl
  | cons first rest =>
      have listed := Json.asListOf?_ofStrings (first :: rest)
      cases sort with
      | none => exact listed
      | some _ => exact listed

/-- An operation is read back from its member, if its doubles are finite and the query of its
filter is read back. -/
theorem ofMember?_member {operation : Operation} (finite : operation.IsFinite)
    (filters : ∀ query, operation = .filter query →
      Query.ofJson? query.toJson = some query.unified) :
    ofMember? operation.member = some operation.unified := by
  cases operation with
  | metric kind field => cases kind <;> rfl
  | percentiles field percents =>
      have listed : ((percentiles field percents).member.2.get? "percents").bind
          (Json.asListOf? Json.asDouble?) = some percents :=
        Json.asListOf?_map fun percent member => Json.asDouble?_ofDouble (finite percent member)
      rw [member] at listed ⊢
      rw [ofMember?, listed]
      rfl
  | terms field size => rfl
  | histogram field interval =>
      have read : ((histogram field interval).member.2.get? "interval").bind Json.asDouble? =
          some interval := Json.asDouble?_ofDouble finite
      rw [member] at read ⊢
      rw [ofMember?, read]
      rfl
  | dateHistogram field interval =>
      have named : (text? (dateHistogram field interval).member.2 "calendar_interval").bind
          CalendarInterval.ofName? = some interval := interval.ofName?_name
      rw [member] at named ⊢
      rw [ofMember?, named]
      rfl
  | filter query =>
      rw [member, ofMember?, filters query rfl]
      rfl
  | topHits size sort includes =>
      have sorted := sortOf?_topHits size sort includes
      have projected := includesOf?_topHits size sort includes
      rw [member] at sorted projected ⊢
      rw [ofMember?, sorted, projected]
      rfl

end Operation

/-! ### Nodes -/

namespace Node

mutual

/-- A node with the ranges of dates and of terms in its filters alike. -/
def unified : Node → Node
  | .mk name operation children => .mk name operation.unified (unifiedAll children)

def unifiedAll : List Node → List Node
  | [] => []
  | node :: nodes => unified node :: unifiedAll nodes

end

mutual

/-- The node of a name with a body. -/
def ofBody? (name : String) : Json → Option Node
  | .object (operation :: rest) => do
      return .mk name (← Operation.ofMember? operation) (← childrenOf? rest)
  | _ => none

/-- The children that follow the operation of a body, if there are some. -/
def childrenOf? : List (String × Json) → Option (List Node)
  | [] => some []
  | [("aggs", .object members)] => ofMembers? members
  | _ => none

def ofMembers? : List (String × Json) → Option (List Node)
  | [] => some []
  | (name, body) :: rest => do return (← ofBody? name body) :: (← ofMembers? rest)

end

/-- The parts of a node can be read back: its children have distinct names, its doubles are
finite, and the query of its filter is read back. -/
structure IsLegible (node : Node) : Prop where
  unique : (node.children.map Node.name).Nodup
  finite : node.operation.IsFinite
  filters : ∀ query, node.operation = .filter query →
    Query.ofJson? query.toJson = some query.unified

@[simp] theorem names_membersOf (nodes : List Node) :
    (Members.names (membersOf nodes)) = nodes.map Node.name := by
  induction nodes with
  | nil => rfl
  | cons node rest inductionHypothesis =>
      rw [membersOf, Members.names, List.map_cons, ← Members.names, inductionHypothesis]
      rfl

/-- Nodes of distinct names are members of their own. -/
theorem ofList_membersOf {nodes : List Node} (unique : (nodes.map Node.name).Nodup) :
    Members.ofList (membersOf nodes) = membersOf nodes := by
  rw [← names_membersOf] at unique
  exact Members.ofList_of_nodup unique

/-- Children are found where they were written; without children there is no member for them. -/
@[simp] theorem childrenOf?_childrenMember (members : Members) :
    childrenOf? (childrenMember members) = ofMembers? members := by
  cases members <;> rfl

mutual

/-- A node is read back from its body, if all nodes within it are legible. -/
theorem ofBody?_toJson : ∀ node : Node, node.IsLegible →
    (∀ found, Within node.children found → found.IsLegible) →
      ofBody? node.name node.toJson = some node.unified
  | .mk name operation children, legible, within => by
      have read : Operation.ofMember? operation.member = some operation.unified :=
        Operation.ofMember?_member legible.finite legible.filters
      have distinct : Members.ofList (membersOf children) = membersOf children :=
        ofList_membersOf legible.unique
      rw [toJson, ofBody?, read, distinct, childrenOf?_childrenMember,
        ofMembers?_membersOf children within]
      rfl

private theorem ofMembers?_membersOf : ∀ nodes : List Node,
    (∀ found, Within nodes found → found.IsLegible) →
      ofMembers? (membersOf nodes) = some (unifiedAll nodes)
  | [], _ => rfl
  | node :: nodes, legible => by
      have first : node.IsLegible := legible node (.here List.mem_cons_self)
      have inside : ∀ found, Within node.children found → found.IsLegible :=
        fun found within => legible found (.deeper List.mem_cons_self within)
      have others : ∀ found, Within nodes found → found.IsLegible :=
        fun found within => legible found (within.cons node)
      rw [membersOf, ofMembers?, ofBody?_toJson node first inside,
        ofMembers?_membersOf nodes others]
      rfl

end

/-! ### What the body leaves out -/

mutual

/-- Nodes that differ in dates and terms alone have one body. -/
theorem toJson_unified : ∀ node : Node, node.unified.toJson = node.toJson
  | .mk _ operation children => by
      rw [unified, toJson, toJson, Operation.member_unified, membersOf_unified children]

private theorem membersOf_unified : ∀ nodes : List Node,
    membersOf (unifiedAll nodes) = membersOf nodes
  | [] => rfl
  | node :: nodes => by
      have named : node.unified.name = node.name := by cases node; rfl
      rw [unifiedAll, membersOf, membersOf, named, toJson_unified node, membersOf_unified nodes]

end

end Node

namespace Aggregations

def unified (aggregations : Aggregations) : Aggregations :=
  ⟨Node.unifiedAll aggregations.nodes⟩

def ofJson? : Json → Option Aggregations
  | .object members => Aggregations.mk <$> Node.ofMembers? members
  | _ => none

/-- Aggregations with distinct names and legible nodes are read back from their JSON form. -/
theorem ofJson?_toJson {aggregations : Aggregations}
    (unique : (aggregations.nodes.map Node.name).Nodup)
    (legible : ∀ node, Node.Within aggregations.nodes node → node.IsLegible) :
    ofJson? aggregations.toJson = some aggregations.unified := by
  rw [toJson, Node.ofList_membersOf unique, ofJson?, Node.ofMembers?_membersOf _ legible]
  rfl

theorem toJson_unified (aggregations : Aggregations) :
    aggregations.unified.toJson = aggregations.toJson := by
  rw [toJson, unified, Node.membersOf_unified, toJson]

end Aggregations

end Facet
