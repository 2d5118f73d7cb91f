import Facet.Proofs.Aggregation.Naming

/-!
What the nodes of a level come from.

Owns:
- the entry that a placement comes from;
- the origin of a node: a metric, the filter of a condition, or a group;
- that every node of a level has one.
-/

namespace Facet

/-- What a node of a level comes from: a metric without condition, the metrics under the condition
of a filter, or a group. -/
inductive Node.Origin (options : BuilderOptions) (level : List Entry) : Node → Prop where
  | metric {declaration : Declaration} {node : Node} (declared : .metric declaration ∈ level)
      (unconditional : declaration.condition = none)
      (made : declaration.node options = .ok node) : Origin options level node
  | filter {declaration : Declaration} {condition : Predicate} {signature : String}
      {query : Query} {children : List Node} (declared : .metric declaration ∈ level)
      (conditional : declaration.condition = some condition)
      (signed : condition.signature = .ok signature)
      (compiled : (condition.compile options.compiler).outcome = .ok query)
      (unique : (children.map Node.name).Nodup)
      (metrics : ∀ child ∈ children, ∃ metric restriction, .metric metric ∈ level ∧
        metric.condition = some restriction ∧ restriction.signature = .ok signature ∧
        metric.node options = .ok child) :
      Origin options level (.mk signature (.filter query) children)
  | group {key : GroupKey} {inner : List Entry} {own : Node} {inside : List Placement}
      (declared : .group key inner ∈ level) (keyed : key.node options = .ok own)
      (grouped : Entry.placements options inner = .ok inside) :
      Origin options level (own.withChildren (arrange [] inside))

/-- A level has nodes other than filters only from placements without a condition. -/
theorem plain_of_mem_arrange {seen : List String} {placements : List Placement} {node : Node}
    (member : node ∈ arrange seen placements)
    (unfiltered : ∀ query, node.operation ≠ .filter query) : .plain node ∈ placements := by
  induction placements generalizing seen with
  | nil => cases member
  | cons placement rest inductionHypothesis =>
      cases placement with
      | plain first =>
          rcases List.mem_cons.mp member with rfl | later
          · exact List.mem_cons_self
          · exact List.mem_cons_of_mem _ (inductionHypothesis later)
      | restricted metric =>
          by_cases known : metric.signature ∈ seen
          · rw [arrange_of_seen known] at member
            exact List.mem_cons_of_mem _ (inductionHypothesis member)
          · rw [arrange_of_new known] at member
            rcases List.mem_cons.mp member with rfl | later
            · exact absurd rfl (unfiltered metric.query)
            · exact List.mem_cons_of_mem _ (inductionHypothesis later)

namespace Spec

variable {options : BuilderOptions}

private theorem entry_of_mem_placements {entries : List Entry} {placed : List Placement}
    {placement : Placement} (placing : Entry.placements options entries = .ok placed)
    (member : placement ∈ placed) :
    ∃ entry ∈ entries, entry.placement options = .ok placement := by
  induction entries generalizing placed with
  | nil =>
      cases placing
      cases member
  | cons first rest inductionHypothesis =>
      obtain ⟨firstPlacement, others, firstPlaced, othersPlaced, rfl⟩ :=
        Entry.placements_cons_eq_ok.mp placing
      rcases List.mem_cons.mp member with rfl | later
      · exact ⟨first, List.mem_cons_self, firstPlaced⟩
      · obtain ⟨entry, declared, made⟩ := inductionHypothesis othersPlaced later
        exact ⟨entry, List.mem_cons_of_mem _ declared, made⟩

/-- What is placed under a condition is a metric with that condition. -/
theorem declared_of_restricted {level : List Entry} {placed : List Placement}
    {metric : Restricted} (placing : Entry.placements options level = .ok placed)
    (member : .restricted metric ∈ placed) :
    ∃ declaration, .metric declaration ∈ level ∧ declaration.node options = .ok metric.node ∧
      ∃ condition, declaration.condition = some condition ∧
        condition.signature = .ok metric.signature ∧
        (condition.compile options.compiler).outcome = .ok metric.query := by
  obtain ⟨entry, declared, made⟩ := entry_of_mem_placements placing member
  cases entry with
  | metric declaration =>
      exact ⟨declaration, declared, Declaration.placement_eq_restricted_iff.mp made⟩
  | group key inner =>
      obtain ⟨_, _, _, _, same⟩ := Entry.placement_group_eq_ok.mp made
      cases same

/-- Every node of a level has an origin there. -/
theorem origin_of_level {level : List Entry} {nodes : List Node} {node : Node}
    (placed : LevelPlaced options level nodes) (member : node ∈ nodes) :
    node.Origin options level := by
  obtain ⟨placements, placing, separate, rfl⟩ := placed
  -- The name of a filter is a signature; every other node has a placement of its own.
  by_cases filtered : ∃ query, node.operation = .filter query
  · obtain ⟨name, operation, children⟩ := node
    obtain ⟨query, rfl⟩ := filtered
    obtain ⟨_, rfl, first, firstFound⟩ :=
      filter_of_mem_arrange (placements_areProper placing) member
    obtain ⟨declaration, declared, _, condition, conditional, signed, compiled⟩ :=
      declared_of_restricted placing firstFound
    refine .filter declared conditional signed compiled (nodup_names_restrictedTo separate name) ?_
    intro child below
    obtain ⟨metric, found, rfl, rfl⟩ := mem_restrictedTo.mp below
    obtain ⟨other, otherDeclared, made, restriction, restricted, otherSigned, _⟩ :=
      declared_of_restricted placing found
    exact ⟨other, restriction, otherDeclared, restricted, otherSigned, made⟩
  · have unfiltered : ∀ query, node.operation ≠ .filter query :=
      fun query same => filtered ⟨query, same⟩
    obtain ⟨entry, declared, made⟩ :=
      entry_of_mem_placements placing (plain_of_mem_arrange member unfiltered)
    cases entry with
    | metric declaration =>
        obtain ⟨nodeMade, unconditional⟩ := Declaration.placement_eq_plain_iff.mp made
        exact .metric declared unconditional nodeMade
    | group key inner =>
        obtain ⟨own, inside, keyed, grouped, same⟩ := Entry.placement_group_eq_ok.mp made
        cases same
        exact .group declared keyed grouped

end Spec

end Facet
