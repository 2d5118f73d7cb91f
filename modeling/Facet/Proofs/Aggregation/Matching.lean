import Facet.Proofs.Aggregation.Building
import Facet.Proofs.Aggregation.Layout
import Facet.Proofs.Result.Address

/-!
Levels of a specification beside levels of its request.

Owns:
- which level of nodes belongs to which level of a specification;
- that in a built request every level has one, made by the placements of the level;
- the nodes that placements have there.
-/

namespace Facet

/-! ### Matching levels -/

/-- The levels of some entries beside levels of nodes. Below a group is what the node named
after it holds. -/
inductive Spec.Matching : List Entry → List Node → List Entry → List Node → Prop where
  | whole (entries : List Entry) (nodes : List Node) : Matching entries nodes entries nodes
  | inner {entries inner level : List Entry} {nodes levelNodes : List Node} {key : GroupKey}
      {target : Target} {node : Node} (member : .group key inner ∈ entries)
      (keyed : key.target = .ok target) (found : node ∈ nodes) (named : node.name = target.name)
      (below : Matching inner node.children level levelNodes) :
      Matching entries nodes level levelNodes

/-- The node of a group is named after the target that its readers compute. -/
theorem GroupKey.target_of_node {options : BuilderOptions} {key : GroupKey} {node : Node}
    (keyed : key.node options = .ok node) :
    ∃ target, key.target = .ok target ∧ node.name = target.name := by
  cases key with
  | name wire =>
      cases keyed
      exact ⟨.terms wire, rfl, rfl⟩
  | field source =>
      simp only [GroupKey.node, Outcome.bind_eq_ok, Outcome.pure_eq_ok] at keyed
      obtain ⟨wire, resolved, rfl⟩ := keyed
      exact ⟨.terms wire, by rw [target, resolved]; rfl, rfl⟩
  | histogram source interval =>
      simp only [GroupKey.node, Outcome.bind_eq_ok, Outcome.pure_eq_ok] at keyed
      obtain ⟨wire, resolved, rfl⟩ := keyed
      exact ⟨.histogram wire, by rw [target, resolved]; rfl, rfl⟩
  | dateHistogram source interval =>
      simp only [GroupKey.node, Outcome.bind_eq_ok, Outcome.pure_eq_ok] at keyed
      obtain ⟨wire, resolved, rfl⟩ := keyed
      exact ⟨.dateHistogram wire, by rw [target, resolved]; rfl, rfl⟩

/-! ### Nodes by name -/

theorem Node.filter_name_eq {nodes : List Node} {node : Node}
    (unique : (nodes.map Node.name).Nodup) (member : node ∈ nodes) :
    nodes.filter (·.name == node.name) = [node] := by
  induction nodes with
  | nil => cases member
  | cons first rest inductionHypothesis =>
      rw [List.map_cons, List.nodup_cons] at unique
      obtain ⟨new, restUnique⟩ := unique
      rcases List.mem_cons.mp member with rfl | later
      · have others : rest.filter (·.name == node.name) = [] := by
          rw [List.filter_eq_nil_iff]
          intro other placed same
          exact new (List.mem_map.mpr ⟨other, placed, eq_of_beq same⟩)
        rw [List.filter_cons, if_pos (beq_self_eq_true node.name), others]
      · have different : ¬(first.name == node.name) = true := by
          intro same
          exact new (List.mem_map.mpr ⟨node, later, (eq_of_beq same).symm⟩)
        rw [List.filter_cons, if_neg different]
        exact inductionHypothesis restUnique later

/-- Nodes of one level with one name are one node. -/
theorem Node.eq_of_name_eq {nodes : List Node} {first second : Node}
    (unique : (nodes.map Node.name).Nodup) (firstMember : first ∈ nodes)
    (secondMember : second ∈ nodes) (same : first.name = second.name) : first = second := by
  have firstOnly := filter_name_eq unique firstMember
  have secondOnly := filter_name_eq unique secondMember
  rw [same, secondOnly] at firstOnly
  exact (List.singleton_inj.mp firstOnly).symm

/-- A placement without condition has its node on the level. -/
theorem mem_arrange_of_plain {seen : List String} {placements : List Placement} {node : Node}
    (member : .plain node ∈ placements) : node ∈ arrange seen placements := by
  induction placements generalizing seen with
  | nil => cases member
  | cons placement rest inductionHypothesis =>
      cases placement with
      | plain first =>
          rcases List.mem_cons.mp member with same | later
          · cases same
            exact List.mem_cons_self
          · exact List.mem_cons_of_mem _ (inductionHypothesis later)
      | restricted metric =>
          have later : .plain node ∈ rest := by
            rcases List.mem_cons.mp member with same | later
            · cases same
            · exact later
          by_cases known : metric.signature ∈ seen
          · rw [arrange_of_seen known]
            exact inductionHypothesis later
          · rw [arrange_of_new known]
            exact List.mem_cons_of_mem _ (inductionHypothesis later)

/-- A conditional placement has a filter on the level, with a query equal to its own, that
holds all that is placed below the signature. -/
theorem mem_arrange_of_restricted {seen : List String} {placements : List Placement}
    {metric : Restricted} (separate : Separate placements)
    (member : .restricted metric ∈ placements) (self : metric.query.same metric.query = true)
    (new : metric.signature ∉ seen) :
    ∃ shared, .mk metric.signature (.filter shared) (restrictedTo metric.signature placements) ∈
      arrange seen placements ∧ shared.same metric.query = true := by
  induction placements generalizing seen with
  | nil => cases member
  | cons placement rest inductionHypothesis =>
      cases placement with
      | plain first =>
          have later : .restricted metric ∈ rest := by
            rcases List.mem_cons.mp member with same | later
            · cases same
            · exact later
          obtain ⟨shared, found, queries⟩ :=
            inductionHypothesis (separate_plain_cons.mp separate).2 later new
          exact ⟨shared, List.mem_cons_of_mem _ found, queries⟩
      | restricted first =>
          obtain ⟨apart, restSeparate⟩ := separate_restricted_cons.mp separate
          by_cases shares : first.signature = metric.signature
          · have unknown : first.signature ∉ seen := fun known => new (shares ▸ known)
            rw [arrange_of_new unknown, ← shares, restrictedTo_cons_same]
            refine ⟨first.query, List.mem_cons_self, ?_⟩
            rcases List.mem_cons.mp member with same | later
            · cases same
              exact self
            · exact (apart _ later shares).1
          · have later : .restricted metric ∈ rest := by
              rcases List.mem_cons.mp member with same | later
              · cases same
                exact absurd rfl shares
              · exact later
            rw [restrictedTo_cons_other shares]
            by_cases known : first.signature ∈ seen
            · rw [arrange_of_seen known]
              exact inductionHypothesis restSeparate later new
            · have unseen : metric.signature ∉ first.signature :: seen :=
              List.not_mem_cons_of_ne_of_not_mem (Ne.symm shares) new
              rw [arrange_of_new known]
              obtain ⟨shared, found, queries⟩ := inductionHypothesis restSeparate later unseen
              exact ⟨shared, List.mem_cons_of_mem _ found, queries⟩

/-- Below a filter no two nodes share a name. -/
theorem nodup_names_restrictedTo {placements : List Placement} (separate : Separate placements)
    (signature : String) : ((restrictedTo signature placements).map Node.name).Nodup := by
  rw [separate_iff_pairwise] at separate
  rw [restrictedTo, List.Nodup, List.pairwise_map]
  refine separate.filterMap _ ?_
  intro first second apart node below other otherBelow
  cases first with
  | plain _ => cases below
  | restricted metric =>
      cases second with
      | plain _ => cases otherBelow
      | restricted second =>
          simp only [Placement.below?, Option.ite_none_right_eq_some,
            Option.some.injEq] at below otherBelow
          obtain ⟨signed, rfl⟩ := below
          obtain ⟨otherSigned, rfl⟩ := otherBelow
          exact (apart (signed.trans otherSigned.symm)).2

/-! ### Placements of built levels -/

namespace Spec

variable {options : BuilderOptions}

/-- Entries that are added have placements. -/
theorem placements_of_addEntries {entries : List Entry} {level built : List Node}
    (succeeds : (addEntries options level entries).outcome = .ok built) :
    ∃ placed, Entry.placements options entries = .ok placed := by
  induction entries using Entry.induction generalizing level built with
  | nil => exact ⟨[], rfl⟩
  | metric declaration rest restHypothesis =>
      rw [addEntries_cons_outcome, addEntry_metric_outcome, Outcome.bind_eq_ok] at succeeds
      obtain ⟨extended, inserting, restSucceeds⟩ := succeeds
      obtain ⟨first, firstPlaced, _⟩ := Outcome.bind_eq_ok.mp inserting
      obtain ⟨others, othersPlaced⟩ := restHypothesis restSucceeds
      exact ⟨_, Entry.placements_cons_eq_ok.mpr ⟨first, others, firstPlaced, othersPlaced, rfl⟩⟩
  | group key inner rest innerHypothesis restHypothesis =>
      simp only [addEntries_cons_outcome, addEntry_group_outcome, Outcome.bind_eq_ok] at succeeds
      obtain ⟨extended, ⟨node, keyed, children, innerSucceeds, _⟩, restSucceeds⟩ := succeeds
      obtain ⟨inside, grouped⟩ := innerHypothesis innerSucceeds
      obtain ⟨others, othersPlaced⟩ := restHypothesis restSucceeds
      have first := Entry.placement_group_eq_ok.mpr ⟨node, inside, keyed, grouped, rfl⟩
      exact ⟨_, Entry.placements_cons_eq_ok.mpr ⟨_, others, first, othersPlaced, rfl⟩⟩

/-- What a built request consists of. -/
theorem placements_of_build {spec : Spec} {built : Aggregations}
    (succeeds : (spec.build options).outcome = .ok built) :
    ∃ placed, Entry.placements options spec.entries = .ok placed ∧
      AtEveryLevel (LevelSeparate options) spec.entries ∧ built.nodes = arrange [] placed := by
  have added := succeeds
  rw [build_outcome, Outcome.map_eq_ok] at added
  obtain ⟨_, nodesAdded, _⟩ := added
  obtain ⟨placed, placing⟩ := placements_of_addEntries nodesAdded
  obtain ⟨separate, rfl⟩ := (build_eq_ok_iff placing).mp succeeds
  exact ⟨placed, placing, separate, rfl⟩

theorem placement_of_mem {entries : List Entry} {entry : Entry} {placed : List Placement}
    (placing : Entry.placements options entries = .ok placed) (member : entry ∈ entries) :
    ∃ placement ∈ placed, entry.placement options = .ok placement := by
  induction entries generalizing placed with
  | nil => cases member
  | cons first rest inductionHypothesis =>
      obtain ⟨firstPlacement, others, firstPlaced, othersPlaced, rfl⟩ :=
        Entry.placements_cons_eq_ok.mp placing
      rcases List.mem_cons.mp member with rfl | later
      · exact ⟨firstPlacement, List.mem_cons_self, firstPlaced⟩
      · obtain ⟨placement, found, made⟩ := inductionHypothesis othersPlaced later
        exact ⟨placement, List.mem_cons_of_mem _ found, made⟩

theorem placements_areProper {entries : List Entry} {placed : List Placement}
    (placing : Entry.placements options entries = .ok placed) :
    ∀ placement ∈ placed, placement.IsProper := by
  induction entries generalizing placed with
  | nil =>
      cases placing
      exact nofun
  | cons first rest inductionHypothesis =>
      obtain ⟨firstPlacement, others, firstPlaced, othersPlaced, rfl⟩ :=
        Entry.placements_cons_eq_ok.mp placing
      rw [List.forall_mem_cons]
      exact ⟨Entry.placement_isProper firstPlaced, inductionHypothesis othersPlaced⟩

/-- A level of nodes is the one that the placements of a level make, without collisions. -/
def LevelPlaced (options : BuilderOptions) (level : List Entry) (nodes : List Node) : Prop :=
  ∃ placed, Entry.placements options level = .ok placed ∧ Separate placed ∧
    nodes = arrange [] placed

theorem levelPlaced_of_separate {entries : List Entry} {placed : List Placement}
    (placing : Entry.placements options entries = .ok placed)
    (separate : AtEveryLevel (LevelSeparate options) entries) :
    LevelPlaced options entries (arrange [] placed) := by
  obtain ⟨also, placingAlso, levelSeparate⟩ := separate entries (.whole entries)
  rw [placing] at placingAlso
  cases placingAlso
  exact ⟨placed, placing, levelSeparate, rfl⟩

/-- The node of a group is on its level, with what the group's own placements make below. -/
theorem node_of_group {entries inner : List Entry} {nodes : List Node} {key : GroupKey}
    (placed : LevelPlaced options entries nodes) (member : .group key inner ∈ entries) :
    ∃ node inside, key.node options = .ok node ∧
      Entry.placements options inner = .ok inside ∧
      node.withChildren (arrange [] inside) ∈ nodes := by
  obtain ⟨placements, placing, _, rfl⟩ := placed
  obtain ⟨placement, found, made⟩ := placement_of_mem placing member
  obtain ⟨node, inside, keyed, grouped, rfl⟩ := Entry.placement_group_eq_ok.mp made
  exact ⟨node, inside, keyed, grouped, mem_arrange_of_plain found⟩

/-- Every level of entries whose levels are separate has a matching level of nodes. -/
theorem exists_matching {entries level : List Entry} {placed : List Placement}
    (placing : Entry.placements options entries = .ok placed)
    (separate : AtEveryLevel (LevelSeparate options) entries)
    (reached : HasLevel entries level) :
    ∃ nodes, Matching entries (arrange [] placed) level nodes := by
  induction reached generalizing placed with
  | whole entries => exact ⟨_, .whole entries _⟩
  | inner member _ innerHypothesis =>
      have levelPlaced := levelPlaced_of_separate placing separate
      obtain ⟨node, inside, keyed, grouped, found⟩ := node_of_group levelPlaced member
      obtain ⟨target, targeted, named⟩ := GroupKey.target_of_node keyed
      have within := (atEveryLevel_iff.mp separate).2 _ _ member
      obtain ⟨nodes, matching⟩ := innerHypothesis grouped within
      exact ⟨nodes, .inner member targeted found named matching⟩

/-- A matching level is made by the placements of its level. -/
theorem levelPlaced_of_matching {entries level : List Entry} {nodes levelNodes : List Node}
    (placed : LevelPlaced options entries nodes)
    (separate : AtEveryLevel (LevelSeparate options) entries)
    (matching : Matching entries nodes level levelNodes) :
    LevelPlaced options level levelNodes := by
  induction matching with
  | whole => exact placed
  | inner member keyed found named _ belowHypothesis =>
      obtain ⟨made, inside, madeKeyed, grouped, madeFound⟩ := node_of_group placed member
      obtain ⟨target, targeted, madeNamed⟩ := GroupKey.target_of_node madeKeyed
      rw [keyed] at targeted
      cases targeted
      have within := (atEveryLevel_iff.mp separate).2 _ _ member
      refine belowHypothesis ?_ within
      obtain ⟨placements, _, levelSeparate, rfl⟩ := placed
      have sameName := named.trans madeNamed.symm
      have same := Node.eq_of_name_eq (nodup_names_arrange levelSeparate) found madeFound sameName
      rw [same]
      exact levelPlaced_of_separate grouped within

/-- Every level of a built request is made by the placements of its level. -/
theorem levelPlaced_of_build {spec : Spec} {built : Aggregations} {level : List Entry}
    {nodes : List Node} (succeeds : (spec.build options).outcome = .ok built)
    (matching : Matching spec.entries built.nodes level nodes) :
    LevelPlaced options level nodes := by
  obtain ⟨placed, placing, separate, same⟩ := placements_of_build succeeds
  rw [same] at matching
  exact levelPlaced_of_matching (levelPlaced_of_separate placing separate) separate matching

/-- Every level of a built specification has a matching level of nodes, made by its placements. -/
theorem exists_matching_of_build {spec : Spec} {built : Aggregations} {level : List Entry}
    (succeeds : (spec.build options).outcome = .ok built)
    (reached : HasLevel spec.entries level) :
    ∃ nodes, Matching spec.entries built.nodes level nodes ∧ LevelPlaced options level nodes := by
  obtain ⟨_, placing, separate, same⟩ := placements_of_build succeeds
  obtain ⟨nodes, matching⟩ := exists_matching placing separate reached
  rw [← same] at matching
  exact ⟨nodes, matching, levelPlaced_of_build succeeds matching⟩

end Spec

end Facet
