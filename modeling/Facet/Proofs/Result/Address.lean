import Facet.Proofs.Outcome
import Facet.Result.Reading

/-!
Where the results of declarations are looked for.

A reader is called with the fields and conditions of a declaration, and computes the name of
the result from them as the request did.

Owns:
- the address of every declaration, and the target that a group is named after;
- the readers of declarations, each with what it makes of a result, and those of groups;
- that every reader looks at the address of its declaration, and nowhere else.
-/

namespace Facet

/-! ### Addresses -/

/-- The address that the readers of a declaration compute. -/
def Declaration.address : Declaration → Except Error Address
  | .measure kind field condition => (MetricKind.measure kind).address field condition
  | .percentiles field _ condition => MetricKind.percentiles.address field condition
  | .topHits _ none _ => .ok ((Target.topHits none).address none)
  | .topHits _ (some (field, direction)) _ => do
      let wire ← field.wire
      return (Target.topHits (some (wire, direction))).address none

/-- The target that the readers of a group compute. -/
def GroupKey.target : GroupKey → Except Error Target
  | .field source => do
      return .terms (← source.wire)
  | .name wire => .ok (.terms wire)
  | .histogram source _ => do
      return .histogram (← source.wire)
  | .dateHistogram source _ => do
      return .dateHistogram (← source.wire)

/-! ### Readers -/

namespace Tree

/-- The readers of a declaration on a tree, each with what it makes of the name and the
result. -/
inductive IsReader (tree : Tree) :
    (α : Type) → Declaration → Traced α → (String → Json → Traced α) → Prop where
  | value {α : Type} (measure : Measure) (reader : ValueReader α) (field : FieldExpr)
      (condition : Option Predicate) :
      IsReader tree α (.measure measure field condition)
        (tree.value measure reader field condition)
        fun name body => reader.convert name ((body.get? "value").getD .null)
  | stats (field : FieldExpr) (condition : Option Predicate) :
      IsReader tree Stats (.measure .stats field condition) (tree.stats field condition)
        fun _ body =>
          match Stats.ofJson? body with
          | some stats => pure stats
          | none => Traced.ofExcept (.error .undecodable)
  | percentiles (field : FieldExpr) (percents : List Double) (condition : Option Predicate) :
      IsReader tree (List Percentile) (.percentiles field percents condition)
        (tree.percentiles field condition)
        fun name body =>
          match (body.get? "values").bind Json.asObject? with
          | none => .refuse name body.render "percentiles"
          | some entries => entries.mapM (percentile name)
  | first {α : Type} (reader : KeyReader α) (field : FieldExpr) (condition : Option Predicate) :
      IsReader tree (Option α) (.measure .first field condition)
        (tree.first reader field condition)
        fun name body => do
          match ← body.buckets name with
          | [] => return none
          | bucket :: _ => return some (← bucket.key.read reader name)
  | distinct {α : Type} (reader : KeyReader α) (field : FieldExpr) :
      IsReader tree (List α) (.measure .distinct field none) (tree.distinct reader field)
        fun name body => do
          let buckets ← body.buckets name
          buckets.mapM fun bucket => bucket.key.read reader name
  | topHits {α : Type} (decode : Json → Option α) (size : Nat) (fields : List FieldExpr) :
      IsReader tree (List α) (.topHits size none fields) (tree.topHits decode)
        fun name body =>
          match body.hits? with
          | none => .refuse name body.render "hits"
          | some hits => Json.sources decode hits
  | sortedTopHits {α : Type} (decode : Json → Option α) (size : Nat) (sort : FieldExpr)
      (direction : Direction) (fields : List FieldExpr) :
      IsReader tree (List α) (.topHits size (some (sort, direction)) fields)
        (tree.sortedTopHits decode sort direction)
        fun name body =>
          match body.hits? with
          | none => .refuse name body.render "hits"
          | some hits => Json.sources decode hits

/-- Every reader computes the address of its declaration and takes the result from there. -/
theorem IsReader.eq_locate {tree : Tree} {α : Type} {declaration : Declaration}
    {run : Traced α} {next : String → Json → Traced α}
    (reader : tree.IsReader α declaration run next) :
    run = (do
      let address ← declaration.address
      let body ← tree.locate address
      next address.name body) := by
  cases reader with
  | sortedTopHits decode size sort direction fields =>
      rw [Tree.sortedTopHits, Declaration.address]
      cases sort.wire <;> rfl
  | _ => rfl

/-- Reads the buckets of a group. -/
def readBuckets (tree : Tree) : GroupKey → Traced (List Bucket)
  | .field field => tree.groupBy field
  | .name name => tree.groupByName name
  | .histogram field _ => tree.histogram field
  | .dateHistogram field _ => tree.dateHistogram field

theorem readBuckets_eq (tree : Tree) (key : GroupKey) :
    tree.readBuckets key = (do
      let target ← key.target
      tree.buckets target.name) := by
  cases key with
  | name wire => rfl
  | field field =>
      rw [readBuckets, groupBy, GroupKey.target]
      cases field.wire <;> rfl
  | histogram field interval =>
      rw [readBuckets, histogram, GroupKey.target]
      cases field.wire <;> rfl
  | dateHistogram field interval =>
      rw [readBuckets, dateHistogram, GroupKey.target]
      cases field.wire <;> rfl

end Tree

/-! ### Reading at an address -/

/-- In every tree, every reader of a declaration takes the result at an address. -/
def Declaration.IsReadAt (declaration : Declaration) (address : Address) : Prop :=
  ∀ (tree : Tree) (α : Type) (run : Traced α) (next : String → Json → Traced α),
    tree.IsReader α declaration run next → run = tree.locate address >>= next address.name

theorem Declaration.isReadAt_of_address {declaration : Declaration} {address : Address}
    (computed : declaration.address = .ok address) : declaration.IsReadAt address := by
  intro tree α run next reader
  rw [reader.eq_locate, Traced.liftM_of_ok computed, pure_bind]

/-- In every tree, the reader of a group takes the buckets under the name of a target. -/
def GroupKey.IsReadAt (key : GroupKey) (target : Target) : Prop :=
  ∀ tree : Tree, tree.readBuckets key = tree.buckets target.name

theorem GroupKey.isReadAt_of_target {key : GroupKey} {target : Target}
    (computed : key.target = .ok target) : key.IsReadAt target := by
  intro tree
  rw [tree.readBuckets_eq, Traced.liftM_of_ok computed, pure_bind]

end Facet
