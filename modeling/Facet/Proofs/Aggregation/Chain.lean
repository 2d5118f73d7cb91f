import Facet.Proofs.Aggregation.Nesting
import Facet.Proofs.Result.Nodes

/-!
The nodes that a tower of groups is built as.

The groups of a built specification are one chain of nodes, down from the root. All other nodes
are those of metrics, which stand beside the groups or in the filters of their conditions, and
these filters.

Owns:
- levels reached through nodes, and where a metric sits;
- the chain of a tower, with what stands beside each of its nodes;
- the chain of the steps of declaring.
-/

namespace Facet

/-! ### Nodes and metrics -/

namespace Node

/-- A node by itself, without what is inside. -/
def bare (node : Node) : Node :=
  .leaf node.name node.operation

/-- A level that is reached from another one through some nodes. -/
inductive Enters : List Node → List Node → List Node → Prop where
  | here (nodes : List Node) : Enters nodes [] nodes
  | into {nodes path level : List Node} {node : Node} (member : node ∈ nodes)
      (below : Enters node.children path level) : Enters nodes (node :: path) level

private theorem Enters.within {nodes path level : List Node} {node : Node}
    (reached : Enters nodes path level) (member : node ∈ level) : Within nodes node := by
  induction reached with
  | here => exact .here member
  | into first _ belowHypothesis => exact .deeper first (belowHypothesis member)

end Node

private theorem GroupKey.bare_node {options : BuilderOptions} {key : GroupKey} {node : Node}
    (keyed : key.node options = .ok node) (children : List Node) :
    (node.withChildren children).bare = node := by
  obtain ⟨operation, _, leaf⟩ := GroupKey.computes_of_node keyed
  rw [leaf]
  rfl

/-- One more key in front has its node in front of those of the others. -/
theorem GroupKey.mapM_node_cons {options : BuilderOptions} {key : GroupKey}
    {keys : List GroupKey} {node : Node} {chain : List Node} (keyed : key.node options = .ok node)
    (made : keys.mapM (GroupKey.node options) = .ok (chain.map Node.bare))
    (children : List Node) :
    (key :: keys).mapM (GroupKey.node options) =
      .ok ((node.withChildren children :: chain).map Node.bare) := by
  rw [List.mapM_cons, keyed, Outcome.ok_bind, made, List.map_cons, bare_node keyed]
  rfl

/-- A metric sits on a level: its node does, or is inside the filter of its condition there. -/
def Declaration.SitsOn (options : BuilderOptions) (declaration : Declaration)
    (level : List Node) : Prop :=
  ∃ node, declaration.node options = .ok node ∧
    match declaration.condition with
    | none => node ∈ level
    | some condition =>
        ∃ signature query shared children, condition.signature = .ok signature ∧
          (condition.compile options.compiler).outcome = .ok query ∧
          .mk signature (.filter shared) children ∈ level ∧ shared.same query = true ∧
          node ∈ children

theorem Declaration.SitsOn.cons {options : BuilderOptions} {declaration : Declaration}
    {level : List Node} (sits : declaration.SitsOn options level) (node : Node) :
    declaration.SitsOn options (node :: level) := by
  obtain ⟨made, nodeMade, sits⟩ := sits
  refine ⟨made, nodeMade, ?_⟩
  cases restriction : declaration.condition with
  | none =>
      rw [restriction] at sits
      exact List.mem_cons_of_mem _ sits
  | some condition =>
      rw [restriction] at sits
      obtain ⟨signature, query, shared, children, signed, compiled, member, queries⟩ := sits
      exact ⟨signature, query, shared, children, signed, compiled, List.mem_cons_of_mem _ member,
        queries⟩

namespace Spec

variable {options : BuilderOptions}

/-- A metric that is declared on a level sits on the level that is built from it. -/
theorem declaration_sitsOn {level : List Entry} {nodes : List Node} {declaration : Declaration}
    (placed : LevelPlaced options level nodes) (member : .metric declaration ∈ level) :
    declaration.SitsOn options nodes := by
  obtain ⟨placements, placing, separate, rfl⟩ := placed
  obtain ⟨placement, found, made⟩ := placement_of_mem placing member
  cases placement with
  | plain node =>
      obtain ⟨nodeMade, unconditional⟩ := Declaration.placement_eq_plain_iff.mp made
      refine ⟨node, nodeMade, ?_⟩
      rw [unconditional]
      exact mem_arrange_of_plain found
  | restricted metric =>
      obtain ⟨nodeMade, condition, conditional, signed, compiled⟩ :=
        Declaration.placement_eq_restricted_iff.mp made
      have self := Predicate.query_same_self_of_compile compiled
      obtain ⟨shared, filterFound, queries⟩ :=
        mem_arrange_of_restricted separate found self List.not_mem_nil
      refine ⟨metric.node, nodeMade, ?_⟩
      rw [conditional]
      exact ⟨_, _, shared, _, signed, compiled, filterFound, queries,
        mem_restrictedTo.mpr ⟨metric, found, rfl, rfl⟩⟩

/-! ### Chains -/

/-- The nodes of a tower: each group holds the rest of the tower, in front of what the metrics
of its level place. The groups are a chain. -/
inductive Chained (options : BuilderOptions) :
    List GroupKey → (Nat → List Declaration) → List Node → List Node → Prop where
  | innermost {rows : Nat → List Declaration} {nodes : List Node}
      (row : LevelPlaced options ((rows 0).map .metric) nodes) : Chained options [] rows [] nodes
  | group {key : GroupKey} {keys : List GroupKey} {rows : Nat → List Declaration}
      {node : Node} {chain inner row : List Node} (keyed : key.node options = .ok node)
      (below : Chained options keys (fun depth => rows (depth + 1)) chain inner)
      (beside : LevelPlaced options ((rows 0).map .metric) row) :
      Chained options (key :: keys) rows (node.withChildren inner :: chain)
        (node.withChildren inner :: row)

/-- A tower whose levels are separate is built as a chain. -/
theorem exists_chained {keys : List GroupKey} {rows : Nat → List Declaration}
    {placed : List Placement} (placing : Entry.placements options (tower keys rows) = .ok placed)
    (separate : AtEveryLevel (LevelSeparate options) (tower keys rows)) :
    ∃ chain, Chained options keys rows chain (arrange [] placed) := by
  induction keys generalizing rows placed with
  | nil => exact ⟨[], .innermost (levelPlaced_of_separate placing separate)⟩
  | cons key keys inductionHypothesis =>
      obtain ⟨first, others, firstPlaced, othersPlaced, rfl⟩ :=
        Entry.placements_cons_eq_ok.mp placing
      obtain ⟨node, inside, keyed, grouped, rfl⟩ := Entry.placement_group_eq_ok.mp firstPlaced
      obtain ⟨⟨also, placingAlso, levelSeparate⟩, within⟩ := atEveryLevel_iff.mp separate
      rw [placing] at placingAlso
      cases placingAlso
      obtain ⟨chain, below⟩ := inductionHypothesis grouped (within key _ List.mem_cons_self)
      -- without its group, a level is still separate, and has the metrics only
      have rowSeparate := (separate_plain_cons.mp levelSeparate).2
      exact ⟨_, .group keyed below ⟨others, othersPlaced, rowSeparate, rfl⟩⟩

namespace Chained

variable {keys : List GroupKey} {rows : Nat → List Declaration} {chain nodes : List Node}

/-- The chain has the nodes of the keys. -/
theorem nodes_eq (chained : Chained options keys rows chain nodes) :
    keys.mapM (GroupKey.node options) = .ok (chain.map Node.bare) := by
  induction chained with
  | innermost => rfl
  | group keyed _ _ belowHypothesis => exact GroupKey.mapM_node_cons keyed belowHypothesis _

/-- The metrics beside the first group sit there. -/
theorem sitsOn (chained : Chained options keys rows chain nodes) {declaration : Declaration}
    (declared : declaration ∈ rows 0) : declaration.SitsOn options nodes := by
  have member : Entry.metric declaration ∈ (rows 0).map .metric := List.mem_map_of_mem declared
  cases chained with
  | innermost row => exact declaration_sitsOn row member
  | group keyed below beside => exact (declaration_sitsOn beside member).cons _

/-- Part of the keys leads through part of the chain, to the chain of the others. -/
theorem split {outerKeys innerKeys : List GroupKey}
    (chained : Chained options (outerKeys ++ innerKeys) rows chain nodes) :
    ∃ outer inner level, chain = outer ++ inner ∧
      outerKeys.mapM (GroupKey.node options) = .ok (outer.map Node.bare) ∧
      Node.Enters nodes outer level ∧
      Chained options innerKeys (fun depth => rows (depth + outerKeys.length)) inner level := by
  induction outerKeys generalizing rows chain nodes with
  | nil => exact ⟨[], chain, nodes, rfl, rfl, .here nodes, chained⟩
  | cons key others inductionHypothesis =>
      cases chained with
      | group keyed below beside =>
          obtain ⟨outer, inner, level, rfl, made, reached, rest⟩ := inductionHypothesis below
          exact ⟨_ :: outer, inner, level, rfl, GroupKey.mapM_node_cons keyed made _,
            .into List.mem_cons_self reached, rest⟩

/-! ### Where nodes stand -/

/-- How a node stands at the end of a path of nodes: in the chain, as the filter of a condition,
or as the node of a metric that is declared there, with its filter if it is conditional. -/
inductive Stands (options : BuilderOptions) (rows : Nat → List Declaration) (chain : List Node) :
    List Node → Node → Prop where
  | group {path : List Node} {node : Node} (along : path ++ [node] <+: chain) :
      Stands options rows chain path node
  | filter {path : List Node} {node : Node} {query : Query} (along : path <+: chain)
      (filters : node.operation = .filter query) : Stands options rows chain path node
  | metric {path : List Node} {node : Node} {declaration : Declaration} (along : path <+: chain)
      (declared : declaration ∈ rows path.length) (unconditional : declaration.condition = none)
      (made : declaration.node options = .ok node) : Stands options rows chain path node
  | filtered {path : List Node} {filter node : Node} {declaration : Declaration}
      {condition : Predicate} (along : path <+: chain) (declared : declaration ∈ rows path.length)
      (conditional : declaration.condition = some condition)
      (signed : condition.signature = .ok filter.name)
      (made : declaration.node options = .ok node) :
      Stands options rows chain (path ++ [filter]) node

/-- Below the first group of a chain, nodes stand one level deeper. -/
theorem Stands.cons {rows : Nat → List Declaration} {chain path : List Node} {node : Node}
    (stands : Stands options (fun depth => rows (depth + 1)) chain path node) (first : Node) :
    Stands options rows (first :: chain) (first :: path) node := by
  cases stands with
  | group along => exact .group ((List.prefix_cons_inj first).mpr along)
  | filter along filters => exact .filter ((List.prefix_cons_inj first).mpr along) filters
  | metric along declared unconditional made =>
      exact .metric ((List.prefix_cons_inj first).mpr along) declared unconditional made
  | filtered along declared conditional signed made =>
      exact .filtered ((List.prefix_cons_inj first).mpr along) declared conditional signed made

/-- Among the metrics of a level, and within their filters, nodes stand as metrics and filters. -/
theorem stands_of_row {row path level : List Node} {node : Node} {rows : Nat → List Declaration}
    (placed : LevelPlaced options ((rows 0).map .metric) row) (reached : Node.Enters row path level)
    (member : node ∈ level) (chain : List Node) : Stands options rows chain path node := by
  have declaredOf {declaration : Declaration}
      (declared : Entry.metric declaration ∈ (rows 0).map .metric) : declaration ∈ rows 0 := by
    simpa using declared
  cases reached with
  | here =>
      cases origin_of_level placed member with
      | metric declared unconditional made =>
          exact .metric List.nil_prefix (declaredOf declared) unconditional made
      | filter _ _ _ _ _ _ => exact .filter List.nil_prefix rfl
      | group declared _ _ => simp at declared
  | into first below =>
      cases origin_of_level placed first with
      | metric _ _ made => exact absurd (below.within member) (not_within_metric made)
      | filter _ _ _ _ _ metrics =>
          cases below with
          | here =>
              obtain ⟨_, _, declared, conditional, signed, made⟩ := metrics node member
              show Stands options rows chain ([] ++ [_]) node
              exact .filtered List.nil_prefix (declaredOf declared) conditional signed made
          | into inside further =>
              obtain ⟨_, _, _, _, _, made⟩ := metrics _ inside
              exact absurd (further.within member) (not_within_metric made)
      | group declared _ _ => simp at declared

/-- Every node that is reached stands in the chain, or as a metric or a filter. -/
theorem stands {path level : List Node} {node : Node}
    (chained : Chained options keys rows chain nodes) (reached : Node.Enters nodes path level)
    (member : node ∈ level) : Stands options rows chain path node := by
  induction chained generalizing path with
  | innermost row => exact stands_of_row row reached member []
  | group keyed below beside belowHypothesis =>
      cases reached with
      | here =>
          rcases List.mem_cons.mp member with rfl | others
          · exact .group (List.prefix_append _ _)
          · exact stands_of_row beside (.here _) others _
      | into first deeper =>
          rcases List.mem_cons.mp first with rfl | others
          · exact (belowHypothesis deeper).cons _
          · exact stands_of_row beside (.into others deeper) member _

end Chained

/-! ### Steps -/

/-- How the nodes of some steps nest: the groups are the nodes of a chain that leads down from
the root, one for each key and outermost first. A metric sits on the level that is reached
through the groups that are declared after it, and every node of the request stands in the
chain, or as a metric of the level that it is reached through, or as the filter of one. -/
structure Nested (options : BuilderOptions) (steps : List Step) (nodes chain : List Node) :
    Prop where
  keys : (groupKeys steps).mapM (GroupKey.node options) = .ok (chain.map Node.bare)
  reached : ∃ innermost, Node.Enters nodes chain innermost
  metrics : ∀ before declaration after, steps = before ++ .declare declaration :: after →
    ∃ outer inner level, chain = outer ++ inner ∧
      (groupKeys after).mapM (GroupKey.node options) = .ok (outer.map Node.bare) ∧
      (groupKeys before).mapM (GroupKey.node options) = .ok (inner.map Node.bare) ∧
      Node.Enters nodes outer level ∧ declaration.SitsOn options level
  stands : ∀ path level node, Node.Enters nodes path level → node ∈ level →
    Chained.Stands options (fun depth => declaredAt depth steps) chain path node

private theorem Chained.nested {steps : List Step} {chain nodes : List Node}
    (chained : Chained options (groupKeys steps) (fun depth => declaredAt depth steps) chain
      nodes) : Nested options steps nodes chain where
  keys := chained.nodes_eq
  reached := by
    rw [← List.append_nil (groupKeys steps)] at chained
    obtain ⟨outer, inner, level, rfl, _, reached, rest⟩ := chained.split
    cases rest with
    | innermost =>
        rw [List.append_nil]
        exact ⟨level, reached⟩
  metrics before declaration after same := by
    subst same
    have ordered : groupKeys (before ++ .declare declaration :: after) =
        groupKeys after ++ groupKeys before := by
      rw [groupKeys_append]
      simp [groupKeys, Step.keys]
    rw [ordered] at chained
    obtain ⟨outer, inner, level, rfl, outerMade, reached, rest⟩ := chained.split
    refine ⟨outer, inner, level, rfl, outerMade, rest.nodes_eq, reached, ?_⟩
    refine rest.sitsOn ?_
    rw [Nat.zero_add]
    exact mem_declaredAt
  stands _ _ _ reached member := chained.stands reached member

/-- **Nesting follows the order of declaring.** Whatever the steps, every level of the
specification has at most one group, in front of its metrics. If it is built, then the groups
are one chain of nodes, the group declared last outermost, and a metric sits under exactly
the groups that are declared after it. -/
theorem steps_nest (steps : List Step) :
    (∀ level, HasLevel (ofSteps steps).entries level → GroupFirst level) ∧
      ∀ options built, ((ofSteps steps).build options).outcome = .ok built →
        ∃ chain, Nested options steps built.nodes chain := by
  constructor
  · intro level reached
    rw [entries_ofSteps] at reached
    exact groupFirst_of_hasLevel reached
  · intro options built succeeds
    obtain ⟨placed, placing, separate, same⟩ := placements_of_build succeeds
    rw [entries_ofSteps] at placing separate
    obtain ⟨chain, chained⟩ := exists_chained placing separate
    rw [same]
    exact ⟨chain, chained.nested⟩

/-- Cars are grouped by engine, with their weight, and then by maker and model, with the number of
new cars: the number stands under maker and model, in the filter of its condition, and not under
the engine. -/
theorem carsByMaker_nest :
    let weight := Declaration.measure .sum (.property "Weight") none
    let newCars := Declaration.measure .count (.property "Id") (some (.flag (.property "IsNew")))
    let before : List Step := [.declare weight, .group (.field (.property "EngineType"))]
    let after : List Step := [.groupNames ["maker", "model"]]
    let steps := before ++ .declare newCars :: after
    ∃ built chain, ((ofSteps steps).build .standard).outcome = .ok built ∧
      Nested .standard steps built.nodes chain ∧
      chain.map Node.bare =
        [.leaf "maker" (.terms "maker" 10000), .leaf "model" (.terms "model" 10000),
          .leaf "engineType" (.terms "engineType" 10000)] ∧
      ∃ outer inner level, chain = outer ++ inner ∧
        outer.map Node.bare =
          [.leaf "maker" (.terms "maker" 10000), .leaf "model" (.terms "model" 10000)] ∧
        Node.Enters built.nodes outer level ∧ newCars.SitsOn .standard level ∧
        ∃ children, .mk "isNew" (.filter (.flag "isNew")) children ∈ level ∧
          .leaf "CountId" (.metric .valueCount "id") ∈ children := by
  intro weight newCars before after steps
  have succeeds : ((ofSteps steps).build .standard).outcome = .ok _ := rfl
  obtain ⟨chain, nested⟩ := (steps_nest steps).2 _ _ succeeds
  obtain ⟨outer, inner, level, split, outerMade, _, reached, sits⟩ :=
    nested.metrics before newCars after rfl
  have sitsOn := sits
  obtain ⟨node, made, signature, query, shared, children, signed, compiled, member, same,
    within⟩ := sits
  obtain rfl : .leaf "CountId" (.metric .valueCount "id") = node := Except.ok.inj made
  obtain rfl : "isNew" = signature := Except.ok.inj signed
  obtain rfl : .flag "isNew" = query := Except.ok.inj compiled
  obtain rfl := Query.eq_flag_of_same same
  exact ⟨_, chain, succeeds, nested, Except.ok.inj (nested.keys.symm.trans rfl), outer, inner,
    level, split, Except.ok.inj (outerMade.symm.trans rfl), reached, sitsOn, children, member,
    within⟩

end Spec

end Facet
