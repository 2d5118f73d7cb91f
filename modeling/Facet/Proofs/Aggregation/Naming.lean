import Facet.Proofs.Aggregation.Characterization

/-!
The names of a request, as its readers compute them.

Requests are built and results are read by two computations of names. They agree: what the
readers of a declaration compute addresses the one node that was built for it.

Owns:
- what the engine has to compute for each declaration and each group;
- that the address of a declaration is that of its placement;
- that in a built request every address is that of exactly one node, which computes what was
  declared.
-/

namespace Facet

/-! ### What is declared -/

/-- What the engine has to compute for a declaration, on resolved names. -/
inductive Declaration.Computes (options : BuilderOptions) : Declaration → Operation → Prop where
  | sum {source : FieldExpr} {condition : Option Predicate} {wire : String}
      (resolved : source.wire = .ok wire) :
      Computes options (.measure .sum source condition) (.metric .sum wire)
  | count {source : FieldExpr} {condition : Option Predicate} {wire : String}
      (resolved : source.wire = .ok wire) :
      Computes options (.measure .count source condition) (.metric .valueCount wire)
  | average {source : FieldExpr} {condition : Option Predicate} {wire : String}
      (resolved : source.wire = .ok wire) :
      Computes options (.measure .average source condition) (.metric .average wire)
  | min {source : FieldExpr} {condition : Option Predicate} {wire : String}
      (resolved : source.wire = .ok wire) :
      Computes options (.measure .min source condition) (.metric .min wire)
  | max {source : FieldExpr} {condition : Option Predicate} {wire : String}
      (resolved : source.wire = .ok wire) :
      Computes options (.measure .max source condition) (.metric .max wire)
  | cardinality {source : FieldExpr} {condition : Option Predicate} {wire : String}
      (resolved : source.wire = .ok wire) :
      Computes options (.measure .cardinality source condition) (.metric .cardinality wire)
  | stats {source : FieldExpr} {condition : Option Predicate} {wire : String}
      (resolved : source.wire = .ok wire) :
      Computes options (.measure .stats source condition) (.metric .stats wire)
  | first {source : FieldExpr} {condition : Option Predicate} {wire : String}
      (resolved : source.wire = .ok wire) :
      Computes options (.measure .first source condition) (.terms wire 1)
  | distinct {source : FieldExpr} {condition : Option Predicate} {wire : String}
      (resolved : source.wire = .ok wire) :
      Computes options (.measure .distinct source condition) (.terms wire options.termsSize)
  | percentiles {source : FieldExpr} {percents : List Double} {condition : Option Predicate}
      {wire : String} (resolved : source.wire = .ok wire) (listed : percents ≠ []) :
      Computes options (.percentiles source percents condition) (.percentiles wire percents)
  | standardPercentiles {source : FieldExpr} {condition : Option Predicate} {wire : String}
      (resolved : source.wire = .ok wire) :
      Computes options (.percentiles source [] condition)
        (.percentiles wire options.defaultPercents)
  | topHits {size : Nat} {fields : List FieldExpr} {includes : List String}
      (projected : fields.map FieldExpr.wire = includes.map Except.ok) :
      Computes options (.topHits size none fields) (.topHits size none includes)
  | sortedTopHits {size : Nat} {sort : FieldExpr} {direction : Direction} {wire : String}
      {fields : List FieldExpr} {includes : List String} (resolved : sort.wire = .ok wire)
      (projected : fields.map FieldExpr.wire = includes.map Except.ok) :
      Computes options (.topHits size (some (sort, direction)) fields)
        (.topHits size (some (wire, direction)) includes)

/-- What the engine has to compute for a group. -/
inductive GroupKey.Computes (options : BuilderOptions) : GroupKey → Operation → Prop where
  | field {source : FieldExpr} {wire : String} (resolved : source.wire = .ok wire) :
      Computes options (.field source) (.terms wire options.termsSize)
  | name (wire : String) : Computes options (.name wire) (.terms wire options.termsSize)
  | histogram {source : FieldExpr} {interval : Double} {wire : String}
      (resolved : source.wire = .ok wire) :
      Computes options (.histogram source interval) (.histogram wire interval)
  | dateHistogram {source : FieldExpr} {interval : CalendarInterval} {wire : String}
      (resolved : source.wire = .ok wire) :
      Computes options (.dateHistogram source interval) (.dateHistogram wire interval)

/-! ### What is built -/

private theorem FieldExpr.map_wire_of_mapM {fields : List FieldExpr} {wires : List String}
    (resolved : fields.mapM FieldExpr.wire = .ok wires) :
    fields.map FieldExpr.wire = wires.map Except.ok := by
  induction fields generalizing wires with
  | nil =>
      cases resolved
      rfl
  | cons field rest inductionHypothesis =>
      simp only [List.mapM_cons, Outcome.bind_eq_ok, Outcome.pure_eq_ok] at resolved
      obtain ⟨wire, first, others, succeeds, rfl⟩ := resolved
      rw [List.map_cons, List.map_cons, first, inductionHypothesis succeeds]

theorem Declaration.computes_of_node {options : BuilderOptions} {declaration : Declaration}
    {node : Node} (made : declaration.node options = .ok node) :
    ∃ operation, declaration.Computes options operation ∧ node = .leaf node.name operation := by
  cases declaration with
  | measure kind source condition =>
      simp only [Declaration.node, Outcome.bind_eq_ok, Outcome.pure_eq_ok] at made
      obtain ⟨wire, resolved, rfl⟩ := made
      refine ⟨kind.operation options wire, ?_, rfl⟩
      cases kind with
      | sum => exact .sum resolved
      | count => exact .count resolved
      | average => exact .average resolved
      | min => exact .min resolved
      | max => exact .max resolved
      | cardinality => exact .cardinality resolved
      | stats => exact .stats resolved
      | first => exact .first resolved
      | distinct => exact .distinct resolved
  | percentiles source percents condition =>
      simp only [Declaration.node, Outcome.bind_eq_ok, Outcome.pure_eq_ok] at made
      obtain ⟨wire, resolved, rfl⟩ := made
      cases percents with
      | nil => exact ⟨_, .standardPercentiles resolved, rfl⟩
      | cons percent others => exact ⟨_, .percentiles resolved (List.cons_ne_nil _ _), rfl⟩
  | topHits size sort fields =>
      simp only [Declaration.node, Outcome.bind_eq_ok, Outcome.pure_eq_ok] at made
      obtain ⟨includes, listed, order, ordered, rfl⟩ := made
      have projected := FieldExpr.map_wire_of_mapM listed
      cases sort with
      | none =>
          cases ordered
          exact ⟨_, .topHits projected, rfl⟩
      | some sorting =>
          obtain ⟨field, direction⟩ := sorting
          simp only [sortWire, Outcome.bind_eq_ok, Outcome.pure_eq_ok] at ordered
          obtain ⟨wire, resolved, rfl⟩ := ordered
          exact ⟨_, .sortedTopHits resolved projected, rfl⟩

theorem GroupKey.computes_of_node {options : BuilderOptions} {key : GroupKey} {node : Node}
    (keyed : key.node options = .ok node) :
    ∃ operation, key.Computes options operation ∧ node = .leaf node.name operation := by
  cases key with
  | name wire =>
      cases keyed
      exact ⟨_, .name wire, rfl⟩
  | field source =>
      simp only [GroupKey.node, Outcome.bind_eq_ok, Outcome.pure_eq_ok] at keyed
      obtain ⟨wire, resolved, rfl⟩ := keyed
      exact ⟨_, .field resolved, rfl⟩
  | histogram source interval =>
      simp only [GroupKey.node, Outcome.bind_eq_ok, Outcome.pure_eq_ok] at keyed
      obtain ⟨wire, resolved, rfl⟩ := keyed
      exact ⟨_, .histogram resolved, rfl⟩
  | dateHistogram source interval =>
      simp only [GroupKey.node, Outcome.bind_eq_ok, Outcome.pure_eq_ok] at keyed
      obtain ⟨wire, resolved, rfl⟩ := keyed
      exact ⟨_, .dateHistogram resolved, rfl⟩

/-! ### Addresses of placements -/

/-- The address of a metric has its name, below the signature of its condition. -/
theorem MetricKind.address_eq {kind : MetricKind} {source : FieldExpr} {wire : String}
    (resolved : source.wire = .ok wire) (condition : Option Predicate) :
    kind.address source condition =
      match condition with
      | none => .ok ⟨none, (Target.metric kind wire).name⟩
      | some predicate =>
          (fun signature => ⟨some signature, (Target.metric kind wire).name⟩) <$>
            predicate.signature := by
  rw [address, resolved, Outcome.ok_bind]
  cases condition with
  | none => rfl
  | some predicate => cases predicate.signature <;> rfl

/-- Without a condition, readers compute the name of the node. -/
theorem Declaration.address_of_unconditional {options : BuilderOptions}
    {declaration : Declaration} {node : Node} (made : declaration.node options = .ok node)
    (unconditional : declaration.condition = none) :
    declaration.address = .ok ⟨none, node.name⟩ := by
  cases declaration with
  | measure kind source condition | percentiles source percents condition =>
      simp only [Declaration.node, Outcome.bind_eq_ok, Outcome.pure_eq_ok] at made
      obtain ⟨wire, resolved, rfl⟩ := made
      cases unconditional
      rw [Declaration.address, MetricKind.address_eq resolved]
      rfl
  | topHits size sort fields =>
      simp only [Declaration.node, Outcome.bind_eq_ok, Outcome.pure_eq_ok] at made
      obtain ⟨includes, _, order, ordered, rfl⟩ := made
      cases sort with
      | none =>
          cases ordered
          rfl
      | some sorting =>
          obtain ⟨field, direction⟩ := sorting
          simp only [sortWire, Outcome.bind_eq_ok, Outcome.pure_eq_ok] at ordered
          obtain ⟨wire, resolved, rfl⟩ := ordered
          rw [Declaration.address, resolved]
          rfl

/-- With a condition, readers compute its signature as well. -/
theorem Declaration.address_of_conditional {options : BuilderOptions}
    {declaration : Declaration} {node : Node} {condition : Predicate} {signature : String}
    (made : declaration.node options = .ok node)
    (conditional : declaration.condition = some condition)
    (signed : condition.signature = .ok signature) :
    declaration.address = .ok ⟨some signature, node.name⟩ := by
  cases declaration with
  | measure kind source restriction | percentiles source percents restriction =>
      simp only [Declaration.node, Outcome.bind_eq_ok, Outcome.pure_eq_ok] at made
      obtain ⟨wire, resolved, rfl⟩ := made
      cases conditional
      rw [Declaration.address, MetricKind.address_eq resolved]
      simp only [signed]
      rfl
  | topHits size sort fields => cases conditional

/-! ### Addresses of built requests -/

/-- Readers of a declaration compute an address without error, and read there. It is that of
exactly one node, which computes what was declared; for a conditional declaration this node is
below the one filter of the condition's signature, whose query is that of the condition. -/
def Declaration.IsAddressed (options : BuilderOptions) (nodes : List Node)
    (declaration : Declaration) : Prop :=
  ∃ address operation, declaration.address = .ok address ∧ declaration.IsReadAt address ∧
    declaration.Computes options operation ∧
    match declaration.condition with
    | none =>
        address.filter = none ∧
          nodes.filter (·.name == address.name) = [.leaf address.name operation]
    | some condition =>
        ∃ signature query shared children, condition.signature = .ok signature ∧
          (condition.compile options.compiler).outcome = .ok query ∧
          address.filter = some signature ∧
          nodes.filter (·.name == signature) = [.mk signature (.filter shared) children] ∧
          shared.same query = true ∧
          children.filter (·.name == address.name) = [.leaf address.name operation]

/-- Readers of a group compute a name without error, and read there. It is that of exactly one
node, which groups by what was declared. -/
def GroupKey.IsAddressed (options : BuilderOptions) (nodes : List Node) (key : GroupKey) :
    Prop :=
  ∃ target operation children, key.target = .ok target ∧ key.IsReadAt target ∧
    key.Computes options operation ∧
    nodes.filter (·.name == target.name) = [.mk target.name operation children]

namespace Spec

variable {options : BuilderOptions}

theorem declaration_isAddressed {level : List Entry} {nodes : List Node}
    {declaration : Declaration} (placed : LevelPlaced options level nodes)
    (member : .metric declaration ∈ level) : declaration.IsAddressed options nodes := by
  obtain ⟨placements, placing, separate, rfl⟩ := placed
  obtain ⟨placement, found, made⟩ := placement_of_mem placing member
  cases placement with
  | plain node =>
      obtain ⟨nodeMade, unconditional⟩ := Declaration.placement_eq_plain_iff.mp made
      obtain ⟨operation, computes, leaf⟩ := Declaration.computes_of_node nodeMade
      have address := Declaration.address_of_unconditional nodeMade unconditional
      refine ⟨_, operation, address, Declaration.isReadAt_of_address address, computes, ?_⟩
      simp only [unconditional]
      refine ⟨trivial, ?_⟩
      rw [← leaf]
      exact Node.filter_name_eq (nodup_names_arrange separate) (mem_arrange_of_plain found)
  | restricted metric =>
      obtain ⟨nodeMade, condition, conditional, signed, compiled⟩ :=
        Declaration.placement_eq_restricted_iff.mp made
      obtain ⟨operation, computes, leaf⟩ := Declaration.computes_of_node nodeMade
      have address := Declaration.address_of_conditional nodeMade conditional signed
      have self := Predicate.query_same_self_of_compile compiled
      obtain ⟨shared, filterFound, queries⟩ :=
        mem_arrange_of_restricted separate found self List.not_mem_nil
      have below : metric.node ∈ restrictedTo metric.signature placements :=
        mem_restrictedTo.mpr ⟨metric, found, rfl, rfl⟩
      refine ⟨_, operation, address, Declaration.isReadAt_of_address address, computes, ?_⟩
      simp only [conditional]
      refine ⟨metric.signature, metric.query, shared, _, signed, compiled, rfl,
        Node.filter_name_eq (nodup_names_arrange separate) filterFound, queries, ?_⟩
      rw [← leaf]
      exact Node.filter_name_eq (nodup_names_restrictedTo separate metric.signature) below

theorem group_isAddressed {level inner : List Entry} {nodes : List Node} {key : GroupKey}
    (placed : LevelPlaced options level nodes) (member : .group key inner ∈ level) :
    key.IsAddressed options nodes := by
  obtain ⟨node, inside, keyed, _, found⟩ := node_of_group placed member
  obtain ⟨target, targeted, named⟩ := GroupKey.target_of_node keyed
  obtain ⟨operation, computes, leaf⟩ := GroupKey.computes_of_node keyed
  obtain ⟨_, _, separate, rfl⟩ := placed
  refine ⟨target, operation, arrange [] inside, targeted,
    GroupKey.isReadAt_of_target targeted, computes, ?_⟩
  have only := Node.filter_name_eq (nodup_names_arrange separate) found
  rw [leaf, named] at only
  exact only

/-- **Requests and readers agree on every name.** Every level of a built specification has a
matching level of nodes, and on each matching level the readers of every declaration and of
every group address exactly the node that was built for it. -/
theorem built_isAddressed {spec : Spec} {built : Aggregations}
    (succeeds : (spec.build options).outcome = .ok built) :
    (∀ level, HasLevel spec.entries level →
        ∃ nodes, Matching spec.entries built.nodes level nodes) ∧
      ∀ level nodes, Matching spec.entries built.nodes level nodes →
        (∀ declaration, .metric declaration ∈ level → declaration.IsAddressed options nodes) ∧
          ∀ key inner, .group key inner ∈ level → key.IsAddressed options nodes := by
  obtain ⟨placed, placing, separate, same⟩ := placements_of_build succeeds
  rw [same]
  refine ⟨fun level reached => exists_matching placing separate reached, ?_⟩
  intro level nodes matching
  have levelPlaced :=
    levelPlaced_of_matching (levelPlaced_of_separate placing separate) separate matching
  exact ⟨fun declaration member => declaration_isAddressed levelPlaced member,
    fun key inner member => group_isAddressed levelPlaced member⟩

/-- The heaviest new car is found among what is built below the type of cars. -/
theorem weightByType_isAddressed :
    let heaviest := Declaration.measure .max (.property "Weight")
      (some (.flag (.property "IsNew")))
    ∃ built nodes, (weightByType.build .standard).outcome = .ok built ∧
      Matching weightByType.entries built.nodes weights nodes ∧
      heaviest.address = .ok ⟨some "isNew", "MaxWeight"⟩ ∧
      heaviest.IsAddressed .standard nodes := by
  intro heaviest
  have succeeds : (weightByType.build .standard).outcome = .ok _ := rfl
  have agree := built_isAddressed succeeds
  have below : HasLevel weightByType.entries weights := .inner List.mem_cons_self (.whole _)
  obtain ⟨nodes, matching⟩ := agree.1 weights below
  have declared : Entry.metric heaviest ∈ weights :=
    List.mem_cons_of_mem _ (List.mem_cons_of_mem _ List.mem_cons_self)
  exact ⟨_, nodes, succeeds, matching, rfl, (agree.2 _ nodes matching).1 heaviest declared⟩

end Spec

end Facet
