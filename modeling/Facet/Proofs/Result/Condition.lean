import Facet.Proofs.Aggregation.Naming
import Facet.Proofs.Field.Resolution
import Facet.Proofs.Result.Nodes

/-!
Reading metrics under a condition.

A metric with a condition is looked up in the result of the filter as it stands, with the members
that the engine keeps for itself. The sub-tree of the filter no longer has these. The two ways
agree, since no metric has one of the engine's names, and the engine's own members are left out of
the diagnosis of a missing metric.

Owns:
- the reads of metrics that may have a condition;
- look-up in the results among some members;
- that a read under a condition is the read without it on the sub-tree of its filter.
-/

namespace Facet

/-! ### Look-up among results -/

namespace Members

/-- Leaving out members by name does not touch what is found under the other names. -/
theorem find?_filter_names {keep : String → Bool} {name : String} (kept : keep name = true)
    (members : Members) :
    find? (members.filter fun member => keep member.1) name = find? members name := by
  cases found : find? members name with
  | some value => exact find?_filter_of_kept found kept
  | none =>
      rw [find?, List.lookup_eq_none_iff] at found ⊢
      intro member among
      exact found member (List.mem_filter.mp among).1

private theorem names_filter_names (keep : String → Bool) (members : Members) :
    names (members.filter fun member => keep member.1) = (names members).filter keep := by
  rw [names, names, List.filter_map]
  rfl

/-- Of members that are objects or the engine's own, the results are those that are not the
engine's. -/
theorem subResults_of_objects {members : Members}
    (objects : ∀ member ∈ members, isReserved member.1 = false → member.2.isObject = true) :
    subResults members = members.filter fun member => !isReserved member.1 := by
  apply List.filter_congr
  intro member among
  cases reserved : isReserved member.1 with
  | true => rfl
  | false => exact objects member among reserved

/-- A result is looked up alike among all members and among the results, down to the diagnosis
if it is missing. -/
theorem lookup_subResults {members : Members} {name : String}
    (objects : ∀ member ∈ members, isReserved member.1 = false → member.2.isObject = true)
    (free : isReserved name = false) :
    lookup (subResults members) name = lookup members name := by
  let keep (name : String) : Bool := !isReserved name
  have kept : keep name = true := by
    simp only [keep, free, Bool.not_false]
  have results : subResults members = members.filter fun member => keep member.1 :=
    subResults_of_objects objects
  have found : find? (subResults members) name = find? members name := by
    rw [results]
    exact find?_filter_names kept members
  have present : (names (subResults members)).filter keep = (names members).filter keep := by
    rw [results, names_filter_names, List.filter_filter]
    simp only [Bool.and_self]
  rw [lookup, lookup, found, present]

end Members

/-! ### Reads -/

namespace Tree

/-- The reads of metrics that may have a condition, as functions of the tree and the
condition. -/
inductive IsMetricRead (field : FieldExpr) :
    (α : Type) → (Tree → Option Predicate → Traced α) → Prop where
  | value {α : Type} (measure : Measure) (reader : ValueReader α) :
      IsMetricRead field α fun tree condition => tree.value measure reader field condition
  | stats : IsMetricRead field Stats fun tree condition => tree.stats field condition
  | percentiles :
      IsMetricRead field (List Percentile) fun tree condition => tree.percentiles field condition
  | first {α : Type} (reader : KeyReader α) :
      IsMetricRead field (Option α) fun tree condition => tree.first reader field condition

/-- Whatever the tree holds under a name, its members are results or the engine's own. -/
def HoldsResults (tree : Tree) (name : String) : Prop :=
  ∀ members, tree.find? name = some (.object members) →
    ∀ member ∈ members, isReserved member.1 = false → member.2.isObject = true

/-- A metric inside a filter is found where the sub-tree of the filter has it. -/
theorem locate_filtered {tree : Tree} {filter name : String} (holds : tree.HoldsResults filter)
    (free : isReserved name = false) :
    tree.locate ⟨some filter, name⟩ = (do
      let inner ← tree.subTree filter
      inner.locate ⟨none, name⟩) := by
  simp only [locate, subTree, lookup, bind_assoc, pure_bind]
  cases found : Members.find? tree.members filter with
  | none =>
      rw [Members.lookup, found]
      rfl
  | some body =>
      rw [Members.lookup_of_found found, pure_bind, pure_bind]
      cases body with
      | object members => exact (Members.lookup_subResults (holds members found) free).symm
      | _ => rfl

section

variable {tree : Tree} {field : FieldExpr} {condition : Predicate} {signature : String}

/-- Every such read is the reader of a metric of one kind, with any condition. -/
theorem IsMetricRead.isReader {α : Type} {read : Tree → Option Predicate → Traced α}
    (reads : IsMetricRead field α read) :
    ∃ (kind : MetricKind) (declared : Option Predicate → Declaration)
      (next : String → Json → Traced α),
      (∀ condition, (declared condition).address = kind.address field condition) ∧
        ∀ tree condition, IsReader tree α (declared condition) (read tree condition) next := by
  cases reads with
  | value measure reader =>
      exact ⟨.measure measure, .measure measure field, _, fun _ => rfl,
        fun _ condition => .value measure reader field condition⟩
  | stats =>
      exact ⟨.measure .stats, .measure .stats field, _, fun _ => rfl,
        fun _ condition => .stats field condition⟩
  | percentiles =>
      exact ⟨.percentiles, .percentiles field [], _, fun _ => rfl,
        fun _ condition => .percentiles field [] condition⟩
  | first reader =>
      exact ⟨.measure .first, .measure .first field, _, fun _ => rfl,
        fun _ condition => .first reader field condition⟩

/-- **A read under a condition is the read without it on the sub-tree of its filter.** This holds
of every read of a metric, at every type that it is read as: of the value on success, and of the
error and the names that it lists on failure, also if the filter is missing or no object. The
same events are reported. The result of the filter may be any object with results among the
engine's own members. -/
theorem conditional_read_eq_subTree (resolves : field.Resolves)
    (signed : condition.signature = .ok signature) (holds : tree.HoldsResults signature)
    {α : Type} {read : Tree → Option Predicate → Traced α} (reads : IsMetricRead field α read) :
    read tree (some condition) = (do
      let inner ← tree.subTree signature
      read inner none) := by
  obtain ⟨kind, declared, next, addressed, readers⟩ := reads.isReader
  obtain ⟨wire, resolved⟩ := resolves.wire
  let name := (Target.metric kind wire).name
  have free : isReserved name = false := Target.isReserved_metric rfl
  have outside : (declared (some condition)).address = .ok ⟨some signature, name⟩ := by
    rw [addressed, MetricKind.address_eq resolved]
    simp only [signed]
    rfl
  have inside : (declared none).address = .ok ⟨none, name⟩ := by
    rw [addressed, MetricKind.address_eq resolved]
  have readInside (inner : Tree) : read inner none = inner.locate ⟨none, name⟩ >>= next name :=
    Declaration.isReadAt_of_address inside inner α _ next (readers inner none)
  calc read tree (some condition)
      = tree.locate ⟨some signature, name⟩ >>= next name :=
        Declaration.isReadAt_of_address outside tree α _ next (readers tree (some condition))
    _ = (tree.subTree signature >>= fun inner => inner.locate ⟨none, name⟩) >>= next name := by
        rw [locate_filtered holds free]
    _ = tree.subTree signature >>= fun inner => read inner none := by
        simp only [bind_assoc, readInside]

/-- The weight of heavy cars is read inside their filter, past the engine's own members. The
heaviest of them was not asked for, and both ways report the two results that there are. -/
theorem heavyCars_read :
    let condition := Predicate.compare ⟨.greater, .property "Weight", .integer 1200⟩
    let name := "weight_GreaterThan_1200"
    let results : Members :=
      [("meta", .object []), ("doc_count", .ofInt 2),
        ("SumWeight", .object [("value", .ofInt 2700)]),
        ("CountId", .object [("value", .ofInt 2)])]
    let tree := Tree.mk [("SumWeight", .object [("value", .ofInt 3900)]), (name, .object results)]
    let read (measure : Measure) (tree : Tree) (condition : Option Predicate) : Traced Int :=
      tree.value measure (.integer .signed64) (.property "Weight") condition
    (FieldExpr.property "Weight").Resolves ∧ condition.signature = .ok name ∧
      tree.HoldsResults name ∧
      (∀ measure, read measure tree (some condition) =
        (do
          let inner ← tree.subTree name
          read measure inner none)) ∧
      (read .sum tree (some condition)).outcome = .ok 2700 ∧
      (read .max tree (some condition)).outcome =
        .error (.noSuchAggregation "MaxWeight" ["SumWeight", "CountId"]) := by
  intro condition name results tree read
  have resolves : (FieldExpr.property "Weight").Resolves := ⟨_, rfl⟩
  have signed : condition.signature = .ok name := rfl
  have holds : tree.HoldsResults name := by
    intro members found
    cases found
    decide
  refine ⟨resolves, signed, holds, ?_, rfl, rfl⟩
  intro measure
  exact conditional_read_eq_subTree resolves signed holds (.value measure (.integer .signed64))

/-- A filter with a member that is neither a result nor the engine's own tells the two ways
apart: one finds a result without a value, the other finds no result. -/
example :
    let condition := Predicate.flag (.property "IsNew")
    let tree := Tree.mk [("isNew", .object [("SumWeight", .ofInt 5)])]
    let read (tree : Tree) (condition : Option Predicate) : Traced Int :=
      tree.value .sum (.integer .signed64) (.property "Weight") condition
    (read tree (some condition)).outcome = .error (.coercion "SumWeight" "null" "i64") ∧
      (do
        let inner ← tree.subTree "isNew"
        read inner none).outcome = .error (.noAggregations "SumWeight") :=
  ⟨rfl, rfl⟩

end

end Tree

end Facet
