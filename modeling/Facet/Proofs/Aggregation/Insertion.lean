import Facet.Proofs.Aggregation.Level

/-!
Inserting placements into levels.

Insertion looks only at the level as it is so far. What has been placed before is known from
the level nevertheless: a name is taken exactly if a placement has it, and the filter of a
signature has the query of the first of its placements, which the others share.

Owns:
- the level after one more placement;
- that insertion yields this level if the placement is apart from everything before;
- that insertion is refused otherwise.
-/

namespace Facet

/-! ### One more placement -/

private theorem arrange_concat_plain (seen : List String) (placements : List Placement)
    (node : Node) :
    arrange seen (placements ++ [.plain node]) = arrange seen placements ++ [node] := by
  induction placements generalizing seen with
  | nil => rfl
  | cons placement rest inductionHypothesis =>
      cases placement with
      | plain first =>
          show first :: arrange seen (rest ++ [.plain node]) = first :: arrange seen rest ++ [node]
          rw [inductionHypothesis]
          rfl
      | restricted metric =>
          rw [List.cons_append]
          by_cases known : metric.signature ∈ seen
          · rw [arrange_of_seen known, arrange_of_seen known, inductionHypothesis]
          · rw [arrange_of_new known, arrange_of_new known, inductionHypothesis,
              restrictedTo_append, restrictedTo_plain_cons, restrictedTo_nil, List.append_nil]
            rfl

/-- A signature already seen places nothing more on the level itself. -/
theorem arrange_concat_of_seen {seen : List String} {metric : Restricted}
    (known : metric.signature ∈ seen) (placements : List Placement) :
    arrange seen (placements ++ [.restricted metric]) = arrange seen placements := by
  induction placements generalizing seen with
  | nil => exact arrange_of_seen known []
  | cons placement rest inductionHypothesis =>
      cases placement with
      | plain first =>
          show first :: arrange seen (rest ++ [.restricted metric]) = first :: arrange seen rest
          rw [inductionHypothesis known]
      | restricted other =>
          rw [List.cons_append]
          by_cases otherKnown : other.signature ∈ seen
          · rw [arrange_of_seen otherKnown, arrange_of_seen otherKnown,
              inductionHypothesis known]
          · have different : metric.signature ≠ other.signature :=
              fun same => otherKnown (same ▸ known)
            rw [arrange_of_new otherKnown, arrange_of_new otherKnown,
              inductionHypothesis (List.mem_cons_of_mem _ known), restrictedTo_append,
              restrictedTo_cons_other different, restrictedTo_nil, List.append_nil]

/-! ### Names that are taken -/

/-- A placement takes its name on the level, unless its filter has been placed before. -/
theorem name_mem_arrange {seen : List String} {placements : List Placement}
    {placement : Placement} (member : placement ∈ placements)
    (new : ∀ metric, placement = .restricted metric → metric.signature ∉ seen) :
    placement.name ∈ (arrange seen placements).map Node.name := by
  induction placements generalizing seen with
  | nil => cases member
  | cons first rest inductionHypothesis =>
      cases first with
      | plain node =>
          rcases List.mem_cons.mp member with rfl | later
          · exact List.mem_cons_self
          · exact List.mem_cons_of_mem _ (inductionHypothesis later new)
      | restricted metric =>
          by_cases known : metric.signature ∈ seen
          · rw [arrange_of_seen known]
            rcases List.mem_cons.mp member with rfl | later
            · exact absurd known (new metric rfl)
            · exact inductionHypothesis later new
          · rw [arrange_of_new known, List.map_cons]
            by_cases here : placement.name = metric.signature
            · rw [here]
              exact List.mem_cons_self
            · refine List.mem_cons_of_mem _ (inductionHypothesis ?_ ?_)
              · rcases List.mem_cons.mp member with rfl | later
                · exact absurd rfl here
                · exact later
              · rintro other rfl seenNow
                rcases List.mem_cons.mp seenNow with same | before
                · exact here same
                · exact new other rfl before

/-- The names of a level are those of its placements. -/
theorem mem_names_arrange {placements : List Placement} {name : String} :
    name ∈ (arrange [] placements).map Node.name ↔
      ∃ placement ∈ placements, placement.name = name := by
  constructor
  · intro taken
    obtain ⟨node, member, rfl⟩ := List.mem_map.mp taken
    obtain ⟨placement, placed, named, _⟩ := placement_of_mem_arrange member
    exact ⟨placement, placed, named⟩
  · rintro ⟨placement, member, rfl⟩
    exact name_mem_arrange member fun _ _ => List.not_mem_nil

/-! ### Inserting -/

/-- Inserts a placement into a level. -/
def Placement.insert (level : List Node) : Placement → Except Error (List Node)
  | .plain node => Node.insertUnique level node
  | .restricted metric =>
      Node.insertFiltered metric.signature metric.query metric.node level

namespace Node

private theorem insertUnique_of_new {level : List Node} {node : Node}
    (new : node.name ∉ level.map Node.name) : insertUnique level node = .ok (level ++ [node]) := by
  have free : level.any (·.name == node.name) = false := by
    rw [List.any_eq_false]
    intro sibling member same
    exact new (List.mem_map.mpr ⟨sibling, member, eq_of_beq same⟩)
  rw [insertUnique, free]
  rfl

private theorem insertUnique_of_taken {level : List Node} {node : Node}
    (taken : node.name ∈ level.map Node.name) :
    insertUnique level node = .error (.duplicateAggregation node.name) := by
  obtain ⟨sibling, member, same⟩ := List.mem_map.mp taken
  have found : level.any (·.name == node.name) = true := by
    rw [List.any_eq_true]
    exact ⟨sibling, member, beq_iff_eq.mpr same⟩
  rw [insertUnique, found]
  rfl

private theorem insertFiltered_of_other {sibling : Node} {signature : String}
    (other : sibling.name ≠ signature) (query : Query) (node : Node) (rest : List Node) :
    insertFiltered signature query node (sibling :: rest) =
      (sibling :: ·) <$> insertFiltered signature query node rest := by
  rw [insertFiltered, if_neg other]
  rfl

private theorem insertFiltered_of_otherFilter {signature placed : String}
    (other : placed ≠ signature) (shared query : Query) (node : Node) (children rest : List Node) :
    insertFiltered signature query node (.mk placed (.filter shared) children :: rest) =
      (.mk placed (.filter shared) children :: ·) <$>
        insertFiltered signature query node rest := by
  have different : (Node.mk placed (.filter shared) children).name ≠ signature := other
  exact insertFiltered_of_other different query node rest

private theorem insertFiltered_of_same {shared query : Query} (same : shared.same query = true)
    (signature : String) (node : Node) (children rest : List Node) :
    insertFiltered signature query node (.mk signature (.filter shared) children :: rest) =
      (fun extended => .mk signature (.filter shared) extended :: rest) <$>
        insertUnique children node := by
  have named : (Node.mk signature (.filter shared) children).name = signature := rfl
  rw [insertFiltered, if_pos named]
  simp only [Node.operation, same, if_true]
  rfl

private theorem insertFiltered_of_different {shared query : Query}
    (different : shared.same query = false) (signature : String) (node : Node)
    (children rest : List Node) :
    insertFiltered signature query node (.mk signature (.filter shared) children :: rest) =
      .error (.duplicateAggregation signature) := by
  have named : (Node.mk signature (.filter shared) children).name = signature := rfl
  rw [insertFiltered, if_pos named]
  simp only [Node.operation, different, Bool.false_eq_true, if_false]

private theorem insertFiltered_of_unfiltered {sibling : Node}
    (unfiltered : ∀ query, sibling.operation ≠ .filter query) (query : Query) (node : Node)
    (rest : List Node) :
    insertFiltered sibling.name query node (sibling :: rest) =
      .error (.duplicateAggregation sibling.name) := by
  rw [insertFiltered, if_pos rfl]
  split
  · next shared found => exact absurd found (unfiltered shared)
  · rfl

private theorem insertUnique_refused {level : List Node} {node : Node} {error : Error}
    (refused : insertUnique level node = .error error) :
    ∃ name, error = .duplicateAggregation name := by
  unfold insertUnique at refused
  split at refused
  · cases refused
    exact ⟨node.name, rfl⟩
  · cases refused

private theorem insertFiltered_refused {level : List Node} {signature : String} {query : Query}
    {node : Node} {error : Error}
    (refused : insertFiltered signature query node level = .error error) :
    ∃ name, error = .duplicateAggregation name := by
  induction level with
  | nil => cases refused
  | cons sibling rest inductionHypothesis =>
      by_cases other : sibling.name = signature
      · rw [insertFiltered, if_pos other] at refused
        split at refused
        · split at refused
          · exact insertUnique_refused (Outcome.bind_pure_eq_error.mp refused)
          · cases refused
            exact ⟨signature, rfl⟩
        · cases refused
          exact ⟨signature, rfl⟩
      · rw [insertFiltered, if_neg other] at refused
        exact inductionHypothesis (Outcome.bind_pure_eq_error.mp refused)

end Node

/-! ### Placements that extend a level -/

namespace Placement

/-- Below a filter, a metric apart from everything before has a new name. -/
theorem name_not_mem_restrictedTo {placements : List Placement} {metric : Restricted}
    (apart : ∀ earlier ∈ placements, earlier.Apart (.restricted metric)) :
    metric.node.name ∉ (restrictedTo metric.signature placements).map Node.name := by
  intro taken
  obtain ⟨node, member, same⟩ := List.mem_map.mp taken
  obtain ⟨other, placed, shared, rfl⟩ := mem_restrictedTo.mp member
  exact (apart _ placed shared).2 same

/-- A conditional metric apart from everything before goes into the filter of its signature,
or into a new one at the end. -/
theorem insertFiltered_of_apart {seen : List String} {placements : List Placement}
    {metric : Restricted} (new : metric.signature ∉ seen)
    (apart : ∀ earlier ∈ placements, earlier.Apart (.restricted metric)) :
    Node.insertFiltered metric.signature metric.query metric.node (arrange seen placements) =
      .ok (arrange seen (placements ++ [.restricted metric])) := by
  induction placements generalizing seen with
  | nil =>
      rw [List.nil_append, arrange_of_new new]
      rfl
  | cons placement rest inductionHypothesis =>
      rw [List.forall_mem_cons] at apart
      obtain ⟨firstApart, restApart⟩ := apart
      cases placement with
      | plain node =>
          show Node.insertFiltered _ _ _ (node :: arrange seen rest) =
            .ok (node :: arrange seen (rest ++ [.restricted metric]))
          have different : node.name ≠ metric.signature := firstApart
          rw [Node.insertFiltered_of_other different, inductionHypothesis new restApart]
          rfl
      | restricted other =>
          rw [List.cons_append]
          by_cases known : other.signature ∈ seen
          · rw [arrange_of_seen known, arrange_of_seen known, inductionHypothesis new restApart]
          · rw [arrange_of_new known, arrange_of_new known, restrictedTo_append]
            by_cases same : other.signature = metric.signature
            · obtain ⟨queries, names⟩ := firstApart same
              have free : metric.node.name ∉
                  (other.node :: restrictedTo metric.signature rest).map Node.name := by
                rw [List.map_cons, List.mem_cons, not_or]
                exact ⟨names.symm, name_not_mem_restrictedTo restApart⟩
              rw [same, Node.insertFiltered_of_same queries, Node.insertUnique_of_new free,
                arrange_concat_of_seen List.mem_cons_self, restrictedTo_cons_same]
              rfl
            · have unseen : metric.signature ∉ other.signature :: seen :=
              List.not_mem_cons_of_ne_of_not_mem (Ne.symm same) new
              rw [Node.insertFiltered_of_otherFilter same, inductionHypothesis unseen restApart,
                restrictedTo_cons_other (Ne.symm same), restrictedTo_nil, List.append_nil]
              rfl

/-- A placement apart from everything before extends the level. -/
theorem insert_of_apart {placements : List Placement} {placement : Placement}
    (apart : ∀ earlier ∈ placements, earlier.Apart placement) :
    placement.insert (arrange [] placements) = .ok (arrange [] (placements ++ [placement])) := by
  cases placement with
  | plain node =>
      rw [arrange_concat_plain]
      refine Node.insertUnique_of_new ?_
      rw [mem_names_arrange]
      rintro ⟨earlier, member, same⟩
      have different := apart earlier member
      cases earlier with
      | plain _ => exact different same
      | restricted _ => exact different same
  | restricted metric => exact insertFiltered_of_apart List.not_mem_nil apart

/-! ### Placements that are refused -/

/-- Whatever a filter accepts is apart from everything that the filter holds already. -/
theorem apart_of_shared {first metric : Restricted} {rest : List Placement}
    (separate : Separate (.restricted first :: rest)) (same : first.signature = metric.signature)
    (queries : first.query.same metric.query = true)
    (free : metric.node.name ∉ (first.node :: restrictedTo metric.signature rest).map Node.name) :
    ∀ earlier ∈ Placement.restricted first :: rest, earlier.Apart (.restricted metric) := by
  rw [List.map_cons, List.mem_cons, not_or] at free
  obtain ⟨firstNamed, restNamed⟩ := free
  obtain ⟨firstApart, _⟩ := separate_restricted_cons.mp separate
  rw [List.forall_mem_cons]
  refine ⟨fun _ => ⟨queries, Ne.symm firstNamed⟩, ?_⟩
  intro earlier member
  have apart := firstApart earlier member
  cases earlier with
  | plain node =>
      have different : first.signature ≠ node.name := apart
      show node.name ≠ metric.signature
      exact fun taken => different (same.trans taken.symm)
  | restricted other =>
      intro shared
      obtain ⟨otherQueries, _⟩ := apart (same.trans shared.symm)
      refine ⟨Query.same_trans _ _ _ (Query.same_symm _ _ otherQueries) queries, ?_⟩
      intro sameName
      exact restNamed (List.mem_map.mpr ⟨other.node,
        mem_restrictedTo.mpr ⟨other, member, shared, rfl⟩, sameName⟩)

/-- A conditional metric is accepted only if it is apart from everything before. -/
theorem apart_of_insertFiltered {seen : List String} {placements : List Placement}
    {metric : Restricted} {extended : List Node} (separate : Separate placements)
    (proper : ∀ earlier ∈ placements, earlier.IsProper) (new : metric.signature ∉ seen)
    (inserted : Node.insertFiltered metric.signature metric.query metric.node
      (arrange seen placements) = .ok extended) :
    ∀ earlier ∈ placements, earlier.Apart (.restricted metric) := by
  induction placements generalizing seen extended with
  | nil => exact fun _ member => absurd member List.not_mem_nil
  | cons placement rest inductionHypothesis =>
      obtain ⟨firstProper, restProper⟩ := List.forall_mem_cons.mp proper
      cases placement with
      | plain node =>
          obtain ⟨_, restSeparate⟩ := separate_plain_cons.mp separate
          have reached : Node.insertFiltered metric.signature metric.query metric.node
              (node :: arrange seen rest) = .ok extended := inserted
          by_cases taken : node.name = metric.signature
          · rw [← taken, Node.insertFiltered_of_unfiltered firstProper] at reached
            cases reached
          · rw [Node.insertFiltered_of_other taken, Outcome.map_eq_ok] at reached
            obtain ⟨_, restInserted, _⟩ := reached
            rw [List.forall_mem_cons]
            exact ⟨taken, inductionHypothesis restSeparate restProper new restInserted⟩
      | restricted other =>
          obtain ⟨_, restSeparate⟩ := separate_restricted_cons.mp separate
          by_cases known : other.signature ∈ seen
          · rw [arrange_of_seen known] at inserted
            rw [List.forall_mem_cons]
            refine ⟨fun shared => absurd (shared ▸ known) new, ?_⟩
            exact inductionHypothesis restSeparate restProper new inserted
          · rw [arrange_of_new known] at inserted
            by_cases same : other.signature = metric.signature
            · rw [same] at inserted
              cases queries : other.query.same metric.query with
              | false =>
                  rw [Node.insertFiltered_of_different queries] at inserted
                  cases inserted
              | true =>
                  rw [Node.insertFiltered_of_same queries, Outcome.map_eq_ok] at inserted
                  obtain ⟨_, accepted, _⟩ := inserted
                  refine apart_of_shared separate same queries fun taken => ?_
                  rw [Node.insertUnique_of_taken taken] at accepted
                  cases accepted
            · have unseen : metric.signature ∉ other.signature :: seen :=
              List.not_mem_cons_of_ne_of_not_mem (Ne.symm same) new
              rw [Node.insertFiltered_of_otherFilter same, Outcome.map_eq_ok] at inserted
              obtain ⟨_, restInserted, _⟩ := inserted
              rw [List.forall_mem_cons]
              refine ⟨fun shared => absurd shared same, ?_⟩
              exact inductionHypothesis restSeparate restProper unseen restInserted

/-- A placement is accepted only if it is apart from everything before. -/
theorem apart_of_insert {placements : List Placement} {placement : Placement}
    {extended : List Node} (separate : Separate placements)
    (proper : ∀ earlier ∈ placements, earlier.IsProper)
    (inserted : placement.insert (arrange [] placements) = .ok extended) :
    ∀ earlier ∈ placements, earlier.Apart placement := by
  cases placement with
  | plain node =>
      intro earlier member
      have different : earlier.name ≠ node.name := by
        intro same
        have taken : node.name ∈ (arrange [] placements).map Node.name :=
          mem_names_arrange.mpr ⟨earlier, member, same⟩
        rw [insert, Node.insertUnique_of_taken taken] at inserted
        cases inserted
      cases earlier with
      | plain _ => exact different
      | restricted _ => exact different
  | restricted metric =>
      exact apart_of_insertFiltered separate proper List.not_mem_nil inserted

/-- A placement that is refused is refused as a duplicate. -/
theorem insert_refused {level : List Node} {placement : Placement} {error : Error}
    (refused : placement.insert level = .error error) :
    ∃ name, error = .duplicateAggregation name := by
  cases placement with
  | plain node => exact Node.insertUnique_refused refused
  | restricted metric => exact Node.insertFiltered_refused refused

end Placement

end Facet
