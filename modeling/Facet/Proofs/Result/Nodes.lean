import Facet.Proofs.Aggregation.Likeness
import Facet.Proofs.Aggregation.Origin
import Facet.Proofs.Result.SubTree

/-!
The nodes of a built request, at any depth.

Owns:
- that metrics have no reserved names;
- the nodes among and below some nodes;
- that each of them comes from a level of the specification, as a node of the level or as one of
  its metrics;
- that the children of every node have distinct names, and those of filters free ones;
- that the filters among them have compiled queries.
-/

namespace Facet

/-! ### Names of metrics -/

/-- Reserved names begin with a lower-case letter. -/
theorem isReserved_eq_false_of_isUpper {name : String} {first : Char} {rest : List Char}
    (spelled : name.toList = first :: rest) (upper : first.isUpper = true) :
    isReserved name = false := by
  cases reserved : isReserved name with
  | false => rfl
  | true =>
      simp only [isReserved, reservedNames, List.contains_iff_mem, List.mem_cons,
        List.not_mem_nil, or_false] at reserved
      have lower : first.isUpper = false := by
        rcases reserved with rfl | rfl | rfl | rfl | rfl | rfl | rfl <;> cases spelled <;> rfl
      rw [lower] at upper
      cases upper

/-- No metric has a reserved name. -/
theorem Target.isReserved_metric {target : Target} {kind : MetricKind}
    (metric : target.kind? = some kind) : isReserved target.name = false := by
  obtain ⟨first, rest, spelled, upper, _⟩ := kind.tag_begins
  have appended : target.name.toList = first :: (rest ++ target.suffix.toList) := by
    rw [Target.name_eq_append metric, String.toList_append, spelled, List.cons_append]
  exact isReserved_eq_false_of_isUpper appended upper

/-! ### Nodes at any depth -/

/-- The nodes among some nodes and below them. -/
inductive Node.Within : List Node → Node → Prop where
  | here {nodes : List Node} {node : Node} (member : node ∈ nodes) : Within nodes node
  | deeper {nodes : List Node} {parent node : Node} (member : parent ∈ nodes)
      (within : Within parent.children node) : Within nodes node

theorem Node.Within.cons {nodes : List Node} {node : Node} (within : Node.Within nodes node)
    (first : Node) : Node.Within (first :: nodes) node := by
  cases within with
  | here member => exact .here (List.mem_cons_of_mem first member)
  | deeper member within => exact .deeper (List.mem_cons_of_mem first member) within

/-- What holds of a node of a built request: its children have distinct names, and below a
filter no name is reserved. -/
structure Node.IsSound (node : Node) : Prop where
  unique : (node.children.map Node.name).Nodup
  filters : ∀ query, node.operation = .filter query →
    ∀ child ∈ node.children, isReserved child.name = false

private theorem Node.isSound_of_childless {node : Node} (childless : node.children = []) :
    node.IsSound := by
  constructor
  · rw [childless]
    exact .nil
  · rw [childless]
    exact nofun

private theorem Declaration.children_node {options : BuilderOptions} {declaration : Declaration}
    {node : Node} (made : declaration.node options = .ok node) : node.children = [] := by
  obtain ⟨operation, _, leaf⟩ := Declaration.computes_of_node made
  rw [leaf]
  rfl

/-- Only measures and percentiles are conditional, and these have no reserved names. -/
theorem Declaration.isReserved_of_conditional {options : BuilderOptions}
    {declaration : Declaration} {node : Node} {condition : Predicate}
    (made : declaration.node options = .ok node)
    (conditional : declaration.condition = some condition) : isReserved node.name = false := by
  cases declaration with
  | measure kind source restriction | percentiles source percents restriction =>
      simp only [Declaration.node, Outcome.bind_eq_ok, Outcome.pure_eq_ok] at made
      obtain ⟨wire, _, rfl⟩ := made
      have metric (kind : MetricKind) : (Target.metric kind wire).kind? = some kind := rfl
      exact Target.isReserved_metric (metric _)
  | topHits size sort fields => cases conditional

namespace Spec

variable {options : BuilderOptions}

/-- Nothing is within the node of a metric. -/
theorem not_within_metric {declaration : Declaration} {node found : Node}
    (made : declaration.node options = .ok node) : ¬Node.Within node.children found := by
  rw [Declaration.children_node made]
  intro within
  cases within with
  | here none => cases none
  | deeper none _ => cases none

/-- A node of a request, at any depth, is that of a metric on some level of the specification, or
on that level itself. -/
theorem level_of_within {level : List Entry} {nodes : List Node} {node : Node}
    (placed : LevelPlaced options level nodes)
    (separate : AtEveryLevel (LevelSeparate options) level) (within : Node.Within nodes node) :
    ∃ own, HasLevel level own ∧
      ((∃ declaration, .metric declaration ∈ own ∧ declaration.node options = .ok node) ∨
        ∃ siblings, LevelPlaced options own siblings ∧
          AtEveryLevel (LevelSeparate options) own ∧ node ∈ siblings) := by
  induction within generalizing level with
  | here member => exact ⟨level, .whole level, .inr ⟨_, placed, separate, member⟩⟩
  | deeper member within withinHypothesis =>
      cases origin_of_level placed member with
      | metric _ _ made => exact absurd within (not_within_metric made)
      | filter _ _ _ _ _ metrics =>
          cases within with
          | here below =>
              obtain ⟨metric, _, listed, _, _, made⟩ := metrics _ below
              exact ⟨level, .whole level, .inl ⟨metric, listed, made⟩⟩
          | deeper below within =>
              obtain ⟨_, _, _, _, _, made⟩ := metrics _ below
              exact absurd within (not_within_metric made)
      | group declared _ grouped =>
          have separateInside := (atEveryLevel_iff.mp separate).2 _ _ declared
          obtain ⟨own, reached, found⟩ :=
            withinHypothesis (levelPlaced_of_separate grouped separateInside) separateInside
          exact ⟨own, .inner declared reached, found⟩

/-- Every node of a built request, at any depth, is sound. -/
theorem isSound_of_within {level : List Entry} {nodes : List Node} {node : Node}
    (placed : LevelPlaced options level nodes)
    (separate : AtEveryLevel (LevelSeparate options) level) (within : Node.Within nodes node) :
    node.IsSound := by
  obtain ⟨own, _, ⟨_, _, made⟩ | ⟨siblings, ownPlaced, ownSeparate, member⟩⟩ :=
    level_of_within placed separate within
  · exact Node.isSound_of_childless (Declaration.children_node made)
  · cases origin_of_level ownPlaced member with
    | metric _ _ made => exact Node.isSound_of_childless (Declaration.children_node made)
    | filter _ _ _ _ unique metrics =>
        refine ⟨unique, fun _ _ child below => ?_⟩
        obtain ⟨_, _, _, restricted, _, made⟩ := metrics child below
        exact Declaration.isReserved_of_conditional made restricted
    | group declared keyed grouped =>
        have separateInside := (atEveryLevel_iff.mp ownSeparate).2 _ _ declared
        obtain ⟨_, _, inside, same⟩ := levelPlaced_of_separate grouped separateInside
        refine ⟨?_, fun query filter => absurd filter (GroupKey.node_ne_filter keyed query)⟩
        show ((arrange [] _).map Node.name).Nodup
        rw [same]
        exact nodup_names_arrange inside

/-- Every filter of a built request, at any depth, has the query of a compiled condition. -/
theorem compiled_of_within {level : List Entry} {nodes : List Node} {node : Node} {query : Query}
    (placed : LevelPlaced options level nodes)
    (separate : AtEveryLevel (LevelSeparate options) level) (within : Node.Within nodes node)
    (filters : node.operation = .filter query) :
    ∃ condition : Predicate, (condition.compile options.compiler).outcome = .ok query := by
  obtain ⟨own, _, ⟨_, _, made⟩ | ⟨_, ownPlaced, _, member⟩⟩ :=
    level_of_within placed separate within
  · exact absurd filters (Declaration.node_ne_filter made query)
  · cases origin_of_level ownPlaced member with
    | metric _ _ made => exact absurd filters (Declaration.node_ne_filter made query)
    | filter _ _ _ compiled _ _ =>
        cases filters
        exact ⟨_, compiled⟩
    | group _ keyed _ => exact absurd filters (GroupKey.node_ne_filter keyed query)

end Spec

end Facet
