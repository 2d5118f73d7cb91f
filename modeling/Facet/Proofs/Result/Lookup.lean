import Facet.Proofs.Aggregation.Untagged
import Facet.Proofs.Result.Reach
import Facet.Proofs.Text.Capitals

/-!
What a reader finds under the name of a metric.

A reader computes a name from the kind of a metric and a field, whether or not the metric was
declared. A node with this name may then belong to something else: a metric of the same kind over
a field with the same capitalised words, a group by that very name, or the filter of a condition
with that signature. Nothing else has the name, and if there is none of these, the result is
reported as missing.

Owns:
- what a level can have under the name of a metric, and when it has;
- levels on which only the metric itself has its name;
- the error of a reader whose result is missing.
-/

namespace Facet

/-! ### Under the name of a metric -/

namespace Spec

variable {options : BuilderOptions} {level : List Entry} {nodes : List Node} {target : Target}
  {node : Node}

/-- The node is that of an unconditional metric on the level, named after the target. -/
def IsMetricNamed (options : BuilderOptions) (level : List Entry) (target : Target)
    (node : Node) : Prop :=
  ∃ declared operation, .metric declared ∈ level ∧ declared.condition = none ∧
    declared.Names target ∧ declared.Computes options operation ∧
    node = .leaf target.name operation

/-- What a level can have under the name of a target: a metric that is alike, a group by the
name, or the filter of a condition that has the name as its signature. -/
inductive StandsFor (options : BuilderOptions) (level : List Entry) (target : Target) :
    Node → Prop where
  | metric {other : Target} {node : Node} (alike : target.Alike other)
      (named : IsMetricNamed options level other node) : StandsFor options level target node
  | group {key : GroupKey} {inner : List Entry} {children : List Node}
      (member : .group key inner ∈ level) (keyed : key.target = .ok (.terms target.name)) :
      StandsFor options level target
        (.mk target.name (.terms target.name options.termsSize) children)
  | condition {declared : Declaration} {condition : Predicate} {query : Query}
      {children : List Node} (member : .metric declared ∈ level)
      (conditional : declared.condition = some condition)
      (signed : condition.signature = .ok target.name)
      (compiled : (condition.compile options.compiler).outcome = .ok query) :
      StandsFor options level target (.mk target.name (.filter query) children)

/-- The node of a group under the name of a metric is that of a group by this very name. -/
theorem group_named_metric {key : GroupKey} {kind : MetricKind}
    (metric : target.kind? = some kind) (keyed : key.node options = .ok node)
    (named : node.name = target.name) :
    key.target = .ok (.terms target.name) ∧
      node = .leaf target.name (.terms target.name options.termsSize) := by
  cases key with
  | name wire =>
      cases keyed
      have same : wire = target.name := named
      rw [same]
      exact ⟨rfl, rfl⟩
  | field source =>
      obtain ⟨wire, resolved, made⟩ := Outcome.bind_eq_ok.mp keyed
      cases made
      have same : wire = target.name := named
      rw [GroupKey.target, resolved, same]
      exact ⟨rfl, rfl⟩
  | histogram source interval =>
      obtain ⟨wire, _, made⟩ := Outcome.bind_eq_ok.mp keyed
      cases made
      exact absurd named.symm (Target.name_ne_histogram metric wire).1
  | dateHistogram source interval =>
      obtain ⟨wire, _, made⟩ := Outcome.bind_eq_ok.mp keyed
      cases made
      exact absurd named.symm (Target.name_ne_histogram metric wire).2

/-- Nothing else has the name of a metric. -/
theorem standsFor_of_mem {asked : Declaration} (placed : LevelPlaced options level nodes)
    (names : asked.Names target) (member : node ∈ nodes) (named : node.name = target.name) :
    StandsFor options level target node := by
  cases origin_of_level placed member with
  | metric declared unconditional made =>
      obtain ⟨other, otherNames, otherNamed⟩ := Declaration.names_of_node made
      obtain ⟨operation, computes, leaf⟩ := Declaration.computes_of_node made
      have alike := (names.name_eq_iff otherNames).mp (named.symm.trans otherNamed)
      rw [otherNamed] at leaf
      exact .metric alike ⟨_, operation, declared, unconditional, otherNames, computes, leaf⟩
  | filter declared conditional signed compiled _ _ =>
      cases named
      exact .condition declared conditional signed compiled
  | group declared keyed _ =>
      obtain ⟨kind, metric⟩ := names.kind?
      obtain ⟨grouped, rfl⟩ := group_named_metric metric keyed named
      exact .group declared grouped

/-- Every entry has a node on its level, under the name of its placement. -/
theorem exists_of_placement {entry : Entry} {name : String}
    (placed : LevelPlaced options level nodes) (member : entry ∈ level)
    (named : ∀ placement, entry.placement options = .ok placement → placement.name = name) :
    ∃ node ∈ nodes, node.name = name := by
  obtain ⟨placements, placing, _, rfl⟩ := placed
  obtain ⟨placement, found, made⟩ := placement_of_mem placing member
  exact List.mem_map.mp (mem_names_arrange.mpr ⟨placement, found, named placement made⟩)

/-- What can have the name does have it. -/
theorem exists_of_standsFor (placed : LevelPlaced options level nodes)
    (stands : StandsFor options level target node) : ∃ found ∈ nodes, found.name = target.name := by
  cases stands with
  | metric alike named =>
      obtain ⟨declared, _, member, unconditional, names, _, _⟩ := named
      refine exists_of_placement placed member fun placement made => ?_
      cases placement with
      | plain own =>
          obtain ⟨ownMade, _⟩ := Declaration.placement_eq_plain_iff.mp made
          have computed := Declaration.address_of_unconditional ownMade unconditional
          rw [names.address unconditional] at computed
          have ownNamed := congrArg Address.name (Except.ok.inj computed)
          exact ownNamed.symm.trans alike.name_eq.symm
      | restricted metric =>
          obtain ⟨_, _, conditional, _⟩ := Declaration.placement_eq_restricted_iff.mp made
          rw [unconditional] at conditional
          cases conditional
  | group member keyed =>
      refine exists_of_placement placed member fun placement made => ?_
      obtain ⟨own, _, ownKeyed, _, rfl⟩ := Entry.placement_group_eq_ok.mp made
      obtain ⟨_, targeted, named⟩ := GroupKey.target_of_node ownKeyed
      rw [keyed] at targeted
      cases targeted
      exact named
  | condition member conditional signed _ =>
      refine exists_of_placement placed member fun placement made => ?_
      cases placement with
      | plain own =>
          obtain ⟨_, unconditional⟩ := Declaration.placement_eq_plain_iff.mp made
          rw [conditional] at unconditional
          cases unconditional
      | restricted metric =>
          obtain ⟨_, _, also, alsoSigned, _⟩ := Declaration.placement_eq_restricted_iff.mp made
          rw [conditional] at also
          cases also
          rw [signed] at alsoSigned
          exact (Except.ok.inj alsoSigned).symm

/-- Nothing but metrics has the name of a metric if the others keep apart. -/
theorem StandsFor.metric_of_keepsApart {kind : MetricKind}
    (stands : StandsFor options level target node) (metric : target.kind? = some kind)
    (apart : ∀ entry ∈ level, entry.KeepsApart) :
    ∃ other, target.Alike other ∧ IsMetricNamed options level other node := by
  cases stands with
  | metric alike named => exact ⟨_, alike, named⟩
  | group member keyed =>
      exact absurd ((apart _ member).isUntagged keyed) (Target.name_not_isUntagged metric)
  | condition member conditional signed _ =>
      have begins := apart _ member _ conditional
      exact absurd (Predicate.signature_isUntagged signed begins)
        (Target.name_not_isUntagged metric)

end Spec

/-! ### Fields without capitals -/

/-- The field of the target, if it has one, is a name without capitals. -/
def Target.IsLower : Target → Prop
  | .topHits none => True
  | .topHits (some (field, _)) => IsLowerName field
  | .metric _ field | .terms field | .histogram field | .dateHistogram field => IsLowerName field

/-- Metrics over fields without capitals are alike only if they are the same. -/
theorem Target.Alike.eq_of_isLower {target other : Target} (alike : target.Alike other)
    (lower : target.IsLower) (otherLower : other.IsLower) : target = other := by
  cases alike with
  | metric same => rw [pascal_injective lower otherLower same]
  | topHits => rfl
  | sortedTopHits same => rw [pascal_injective lower otherLower same]

/-- The metrics of the level are over fields without capitals. -/
def Spec.IsLower (level : List Entry) : Prop :=
  ∀ declaration, .metric declaration ∈ level →
    ∀ target, declaration.Names target → target.IsLower

private theorem Spec.IsMetricNamed.isLower {options : BuilderOptions} {level : List Entry}
    {target : Target} {node : Node} (named : IsMetricNamed options level target node)
    (lower : IsLower level) : target.IsLower := by
  obtain ⟨declared, _, member, _, names, _, _⟩ := named
  exact lower declared member target names

/-! ### Missing results -/

/-- The error for a result that the tree does not have. -/
def Tree.missing (tree : Tree) (name : String) : Error :=
  let present := tree.names.filter (!isReserved ·)
  if present.isEmpty then .noAggregations name else .noSuchAggregation name present

theorem Tree.lookup_of_missing {tree : Tree} {name : String} (missing : tree.find? name = none) :
    (tree.lookup name).outcome = .error (tree.missing name) := by
  have absent : Members.find? tree.members name = none := missing
  rw [Tree.lookup, Members.lookup, absent]
  rfl

theorem Tree.mem_names_of_find? {tree : Tree} {name : String} {body : Json}
    (found : tree.find? name = some body) : name ∈ tree.names :=
  List.mem_map.mpr ⟨(name, body), Members.mem_of_find? found, rfl⟩

/-- All results of the tree are those of some nodes. -/
def Tree.IsNamedAfter (tree : Tree) (nodes : List Node) : Prop :=
  ∀ name ∈ tree.names, isReserved name = false → ∃ node ∈ nodes, node.name = name

/-- What the engine returned for some nodes is named after them. -/
theorem Tree.isNamedAfter_of_isAnswer {nodes : List Node} {members : Members}
    (answer : IsAnswer nodes members) : (Tree.mk members).IsNamedAfter nodes := by
  intro name named free
  obtain ⟨member, found, rfl⟩ := List.mem_map.mp named
  rcases answer.others member found with declared | bookkeeping
  · exact declared
  · rw [isReserved_of_bookkeeping bookkeeping] at free
    cases free

/-- The sub-tree of a bucket is named after the nodes below its group. -/
theorem Tree.isNamedAfter_of_takenFrom {nodes : List Node} {members : Members} {tree : Tree}
    (answer : IsAnswer nodes members) (taken : Tree.TakenFrom members tree) :
    tree.IsNamedAfter nodes := by
  intro name named free
  rw [Tree.names, Tree.members_of_takenFrom taken] at named
  obtain ⟨member, kept, rfl⟩ := List.mem_map.mp named
  have found := (List.mem_filter.mp kept).1
  exact isNamedAfter_of_isAnswer answer _ (List.mem_map.mpr ⟨member, found, rfl⟩) free

/-- A reader of an unconditional metric takes what is under its name, or reports it as
missing. -/
theorem Tree.read_unconditional {tree : Tree} {asked : Declaration} {target : Target} {α : Type}
    {run : Traced α} {next : String → Json → Traced α} (names : asked.Names target)
    (unconditional : asked.condition = none) (reader : tree.IsReader α asked run next) :
    (∃ body, tree.find? target.name = some body ∧ run = next target.name body) ∨
      tree.find? target.name = none ∧ run.outcome = .error (tree.missing target.name) := by
  have located := Declaration.isReadAt_of_address (names.address unconditional) tree α run next
    reader
  have unfiltered : tree.locate ⟨none, target.name⟩ = tree.lookup target.name := rfl
  rw [unfiltered] at located
  cases found : tree.find? target.name with
  | some body =>
      have looked : tree.lookup target.name = pure body := Members.lookup_of_found found
      rw [looked, pure_bind] at located
      exact Or.inl ⟨body, rfl, located⟩
  | none =>
      refine Or.inr ⟨rfl, ?_⟩
      rw [located, Traced.outcome_bind, Tree.lookup_of_missing found]
      rfl

/-! ### Looking up metrics -/

namespace Spec

/-- **What a reader of a metric answers for.** A level of a built request has a node under the
name of an unconditional metric if and only if something on the level can stand for it, and the
node is what stands for it: a metric of the same kind over a field with the same capitalised
words, a group by this very name, or the filter of a condition with this signature. If groups
and conditions keep apart it is a metric, and if also no field has a capital it is the metric that
was asked for. On trees of such a level every reader takes the result of what stands for the
metric, or reports a missing result. -/
theorem lookup_answers_iff_standsFor {options : BuilderOptions} {spec : Spec}
    {built : Aggregations} {level : List Entry} {nodes : List Node} {asked : Declaration}
    {target : Target} (succeeds : (spec.build options).outcome = .ok built)
    (matching : Matching spec.entries built.nodes level nodes) (names : asked.Names target)
    (unconditional : asked.condition = none) :
    (∀ node ∈ nodes, node.name = target.name → StandsFor options level target node) ∧
      ((∃ node ∈ nodes, node.name = target.name) ↔
        ∃ node, StandsFor options level target node) ∧
      ((∀ entry ∈ level, entry.KeepsApart) →
        ∀ node, StandsFor options level target node →
          ∃ other, target.Alike other ∧ IsMetricNamed options level other node) ∧
      ((∀ entry ∈ level, entry.KeepsApart) → IsLower level → target.IsLower →
        ∀ node, StandsFor options level target node →
          IsMetricNamed options level target node) ∧
      ∀ tree : Tree, tree.IsNamedAfter nodes →
        ∀ (α : Type) (run : Traced α) (next : String → Json → Traced α),
          tree.IsReader α asked run next →
            (∃ node ∈ nodes, StandsFor options level target node ∧
                ∃ body, tree.find? node.name = some body ∧ run = next node.name body) ∨
              tree.find? target.name = none ∧
                run.outcome = .error (tree.missing target.name) := by
  have levelPlaced : LevelPlaced options level nodes := levelPlaced_of_build succeeds matching
  obtain ⟨kind, metric⟩ := names.kind?
  have stands : ∀ node ∈ nodes, node.name = target.name → StandsFor options level target node :=
    fun node member named => standsFor_of_mem levelPlaced names member named
  refine ⟨stands, ⟨?_, ?_⟩, ?_, ?_, ?_⟩
  · rintro ⟨node, member, named⟩
    exact ⟨node, stands node member named⟩
  · rintro ⟨node, standing⟩
    exact exists_of_standsFor levelPlaced standing
  · intro apart node standing
    exact standing.metric_of_keepsApart metric apart
  · intro apart lower targetLower node standing
    obtain ⟨other, alike, named⟩ := standing.metric_of_keepsApart metric apart
    rw [alike.eq_of_isLower targetLower (named.isLower lower)]
    exact named
  · intro tree namedAfter α run next reader
    refine (Tree.read_unconditional names unconditional reader).imp_left ?_
    rintro ⟨body, found, answers⟩
    obtain ⟨node, member, named⟩ := namedAfter target.name (Tree.mem_names_of_find? found)
      (Target.isReserved_metric metric)
    refine ⟨node, member, stands node member named, body, ?_⟩
    rw [named]
    exact ⟨found, answers⟩

/-- The heaviest car of a type is asked for, but only the heaviest new car was declared. The
result is reported as missing, with those that there are. -/
theorem heaviest_is_missing :
    let heaviest := Declaration.measure .max (.property "Weight") none
    let target := Target.metric (.measure .max) "weight"
    ∃ bucket, (weightByType.build .standard).outcome = .ok ⟨[carTypeNode]⟩ ∧
      Matching weightByType.entries [carTypeNode] weights weightNodes ∧
      heaviest.Names target ∧ heaviest.condition = none ∧
      (∀ node, ¬ StandsFor .standard weights target node) ∧
      Bucket.ofJson "carType" (.object sedanWeights) = .ok bucket ∧
      (bucket.tree.value .max (.integer .unsigned32) (.property "Weight") none).outcome =
        .error (.noSuchAggregation "MaxWeight" ["SumWeight", "isNew"]) := by
  intro heaviest target
  have succeeds : (weightByType.build .standard).outcome = .ok ⟨[carTypeNode]⟩ := rfl
  have matching : Matching weightByType.entries [carTypeNode] weights weightNodes :=
    .inner List.mem_cons_self rfl List.mem_cons_self rfl (.whole _ _)
  have names : heaviest.Names target := .measure rfl
  obtain ⟨bucket, read⟩ : ∃ bucket, Bucket.ofJson "carType" (.object sedanWeights) = .ok bucket :=
    ⟨_, rfl⟩
  have namedAfter : bucket.tree.IsNamedAfter weightNodes :=
    Tree.isNamedAfter_of_takenFrom sedanWeights_levelAnswer.toIsAnswer (.bucket read)
  obtain ⟨_, present, _, _, reads⟩ := lookup_answers_iff_standsFor succeeds matching names rfl
  have nothing : ∀ node, ¬ StandsFor .standard weights target node := by
    intro node standing
    obtain ⟨found, member, named⟩ := present.mpr ⟨node, standing⟩
    have unnamed : ∀ node ∈ weightNodes, node.name ≠ target.name := by decide
    exact unnamed found member named
  refine ⟨bucket, succeeds, matching, names, rfl, nothing, read, ?_⟩
  rcases reads bucket.tree namedAfter _ _ _ (.value .max _ _ none) with
    ⟨node, _, standing, _⟩ | missing
  · exact absurd standing (nothing node)
  · rw [missing.2]
    cases read
    rfl

/-! ### Names that answer for others -/

/-- A level that has the names of three metrics without declaring them: that of a group, that of
a metric over a property of a property, and that of the filter of a condition. -/
def lookalikes : Spec :=
  let counted := Spec.empty.declare (.measure .count (.property "Weight") none)
  let grouped := counted.groupBy (.name "MaxSeats")
  let powered :=
    grouped.declare (.measure .sum (.member (.property "Engine") "Power") none)
  powered.declare (.measure .count (.property "Weight") (some (.flag (.ofWire "MinPrice"))))

/-- What the engine returns for the level. -/
def lookalikeResults : Members :=
  [("MaxSeats", .object [("buckets", .array [])]),
    ("SumEnginePower", .object [("value", .number (.integer 7))]),
    ("MinPrice", .object [("doc_count", .number (.integer 0))])]

/-- A reader of a property that was not declared is answered with the power of the engine, and
readers of two other metrics come to a group and to a filter. -/
theorem lookalikes_answer_for_others :
    ∃ group metric filter, (lookalikes.build .standard).outcome = .ok ⟨[group, metric, filter]⟩ ∧
      (FieldExpr.property "EnginePower").wire = .ok "enginePower" ∧
      metric.name = (Target.metric (.measure .sum) "enginePower").name ∧
      metric.operation = .metric .sum "engine.power" ∧
      (FieldExpr.property "Seats").wire = .ok "seats" ∧
      group.name = (Target.metric (.measure .max) "seats").name ∧
      group.operation = .terms "MaxSeats" 10000 ∧
      (FieldExpr.property "Price").wire = .ok "price" ∧
      filter.name = (Target.metric (.measure .min) "price").name ∧
      filter.operation = .filter (.term "MinPrice" (.bool true)) ∧
      IsAnswer [group, metric, filter] lookalikeResults ∧
      ((Tree.mk lookalikeResults).value .sum (.integer .unsigned32) (.property "EnginePower")
        none).outcome = .ok 7 := by
  refine ⟨_, _, _, rfl, rfl, rfl, rfl, rfl, rfl, rfl, rfl, rfl, rfl, ?_, rfl⟩
  refine ⟨by decide, ?_, by decide⟩
  exact List.forall_mem_cons.mpr ⟨⟨_, rfl⟩, List.forall_mem_cons.mpr ⟨⟨_, rfl⟩,
    List.forall_mem_singleton.mpr ⟨_, rfl⟩⟩⟩

end Spec

end Facet
