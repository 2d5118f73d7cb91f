import Facet.Proofs.Aggregation.Building

/-!
Specifications and requests up to the order of siblings.

Owns:
- entries, placements and nodes in another order, on their level and below;
- that separate placements in another order make a level in another order;
- that specifications in another order are built alike.

The filter of a signature has the query that is declared first. In another order this is
another query, equal to the first one.
-/

namespace Facet

/-! ### Nodes -/

/-- Operations that are equal, queries of filters up to equality of queries. -/
def Operation.Alike (left right : Operation) : Prop :=
  left = right ∨
    ∃ first second, left = .filter first ∧ right = .filter second ∧ first.same second = true

/-- Nodes in another order, on their level and below. -/
inductive Node.Alike : List Node → List Node → Prop where
  | nil : Alike [] []
  | cons {name : String} {leftOperation rightOperation : Operation}
      {leftChildren rightChildren left right : List Node}
      (operations : leftOperation.Alike rightOperation)
      (children : Alike leftChildren rightChildren) (rest : Alike left right) :
      Alike (.mk name leftOperation leftChildren :: left)
        (.mk name rightOperation rightChildren :: right)
  | swap (first second : Node) {left right : List Node} (rest : Alike left right) :
      Alike (first :: second :: left) (second :: first :: right)
  | trans {left middle right : List Node} (first : Alike left middle)
      (second : Alike middle right) : Alike left right

namespace Node

theorem Alike.refl : ∀ nodes : List Node, Alike nodes nodes
  | [] => .nil
  | .mk _ _ children :: rest => .cons (Or.inl rfl) (Alike.refl children) (Alike.refl rest)
termination_by nodes => sizeOf nodes

private theorem Alike.cons_same (node : Node) {left right : List Node} (rest : Alike left right) :
    Alike (node :: left) (node :: right) := by
  obtain ⟨name, operation, children⟩ := node
  exact .cons (Or.inl rfl) (Alike.refl children) rest

theorem Alike.symm {left right : List Node} (alike : Alike left right) : Alike right left := by
  induction alike with
  | nil => exact .nil
  | cons operations _ _ childrenHypothesis restHypothesis =>
      refine .cons ?_ childrenHypothesis restHypothesis
      rcases operations with same | ⟨first, second, rfl, rfl, queries⟩
      · exact Or.inl same.symm
      · exact Or.inr ⟨second, first, rfl, rfl, Query.same_symm _ _ queries⟩
  | swap first second _ restHypothesis => exact .swap second first restHypothesis
  | trans _ _ firstHypothesis secondHypothesis => exact secondHypothesis.trans firstHypothesis

private theorem Alike.of_perm {left right : List Node} (permutation : left.Perm right) :
    Alike left right := by
  induction permutation with
  | nil => exact .nil
  | cons node _ inductionHypothesis => exact inductionHypothesis.cons_same node
  | swap first second rest => exact .swap second first (Alike.refl rest)
  | trans _ _ firstHypothesis secondHypothesis => exact firstHypothesis.trans secondHypothesis

end Node

/-! ### Placements -/

/-- Placements in another order, groups with what they hold in another order. -/
inductive Placement.Alike : List Placement → List Placement → Prop where
  | nil : Alike [] []
  | plain {name : String} {operation : Operation} {leftChildren rightChildren : List Node}
      {left right : List Placement} (children : Node.Alike leftChildren rightChildren)
      (rest : Alike left right) :
      Alike (.plain (.mk name operation leftChildren) :: left)
        (.plain (.mk name operation rightChildren) :: right)
  | restricted (metric : Restricted) {left right : List Placement} (rest : Alike left right) :
      Alike (.restricted metric :: left) (.restricted metric :: right)
  | swap (first second : Placement) (rest : List Placement) :
      Alike (first :: second :: rest) (second :: first :: rest)
  | trans {left middle right : List Placement} (first : Alike left middle)
      (second : Alike middle right) : Alike left right

namespace Placement

private theorem Alike.cons_same (placement : Placement) {left right : List Placement}
    (rest : Alike left right) : Alike (placement :: left) (placement :: right) := by
  cases placement with
  | plain node =>
      obtain ⟨name, operation, children⟩ := node
      exact .plain (Node.Alike.refl children) rest
  | restricted metric => exact .restricted metric rest

/-- A placement without what it holds. -/
def bare : Placement → Placement
  | .plain node => .plain (.leaf node.name node.operation)
  | .restricted metric => .restricted metric

theorem apart_bare_iff (first second : Placement) :
    first.bare.Apart second.bare ↔ first.Apart second := by
  cases first <;> cases second <;> exact Iff.rfl

theorem separate_bare_iff {placements : List Placement} :
    Separate (placements.map bare) ↔ Separate placements := by
  rw [separate_iff_pairwise, separate_iff_pairwise, List.pairwise_map]
  simp only [apart_bare_iff]

private theorem Alike.bare_perm {left right : List Placement} (alike : Alike left right) :
    (left.map bare).Perm (right.map bare) := by
  induction alike with
  | nil => exact .nil
  | plain _ _ restHypothesis => exact .cons _ restHypothesis
  | restricted _ _ restHypothesis => exact .cons _ restHypothesis
  | swap _ _ _ => exact .swap _ _ _
  | trans _ _ firstHypothesis secondHypothesis => exact firstHypothesis.trans secondHypothesis

private theorem Alike.separate {left right : List Placement} (alike : Alike left right)
    (separate : Separate left) : Separate right :=
  separate_bare_iff.mp ((separate_bare_iff.mpr separate).of_perm alike.bare_perm)

/-- Below a filter, the order of the level is kept. -/
theorem Alike.restrictedTo {left right : List Placement} (alike : Alike left right)
    (signature : String) :
    Node.Alike (restrictedTo signature left) (restrictedTo signature right) := by
  induction alike with
  | nil => exact .nil
  | plain _ _ restHypothesis => exact restHypothesis
  | restricted metric _ restHypothesis =>
      by_cases same : metric.signature = signature
      · subst same
        rw [restrictedTo_cons_same, restrictedTo_cons_same]
        exact restHypothesis.cons_same metric.node
      · rw [restrictedTo_cons_other same, restrictedTo_cons_other same]
        exact restHypothesis
  | swap first second rest =>
      exact .of_perm ((List.Perm.swap second first rest).filterMap _)
  | trans _ _ firstHypothesis secondHypothesis => exact firstHypothesis.trans secondHypothesis

/-- Only which signatures have been seen matters, not in which order. -/
theorem arrange_of_same_seen {left right : List String}
    (same : ∀ signature, signature ∈ left ↔ signature ∈ right) (placements : List Placement) :
    arrange left placements = arrange right placements := by
  induction placements generalizing left right with
  | nil => rfl
  | cons placement rest inductionHypothesis =>
      cases placement with
      | plain node =>
          show node :: arrange left rest = node :: arrange right rest
          rw [inductionHypothesis same]
      | restricted metric =>
          by_cases known : metric.signature ∈ left
          · rw [arrange_of_seen known, arrange_of_seen ((same _).mp known),
              inductionHypothesis same]
          · have unknown : metric.signature ∉ right := fun found => known ((same _).mpr found)
            rw [arrange_of_new known, arrange_of_new unknown]
            congr 1
            refine inductionHypothesis fun signature => ?_
            rw [List.mem_cons, List.mem_cons, same]

/-- A node and a filter next to it change places with their placements. -/
theorem arrange_swap_plain (seen : List String) (node : Node) (metric : Restricted)
    (rest : List Placement) :
    Node.Alike (arrange seen (.plain node :: .restricted metric :: rest))
      (arrange seen (.restricted metric :: .plain node :: rest)) := by
  by_cases known : metric.signature ∈ seen
  · rw [arrange_of_seen known]
    show Node.Alike (node :: arrange seen (.restricted metric :: rest))
      (node :: arrange seen rest)
    rw [arrange_of_seen known]
    exact Node.Alike.refl _
  · rw [arrange_of_new known, restrictedTo_plain_cons]
    show Node.Alike (node :: arrange seen (.restricted metric :: rest))
      (_ :: node :: arrange (metric.signature :: seen) rest)
    rw [arrange_of_new known]
    exact .swap _ _ (Node.Alike.refl _)

/-- Metrics of one condition change places within their filter. -/
theorem arrange_swap_shared {seen : List String} {first second : Restricted}
    (shared : first.signature = second.signature)
    (queries : first.query.same second.query = true) (rest : List Placement) :
    Node.Alike (arrange seen (.restricted first :: .restricted second :: rest))
      (arrange seen (.restricted second :: .restricted first :: rest)) := by
  obtain ⟨signature, firstQuery, firstNode⟩ := first
  obtain ⟨_, secondQuery, secondNode⟩ := second
  cases shared
  by_cases known : signature ∈ seen
  · simp only [arrange, known, if_true]
    exact Node.Alike.refl _
  · simp only [arrange, known, if_false, List.mem_cons_self, if_true, restrictedTo,
      List.filterMap_cons, below?]
    exact .cons (Or.inr ⟨_, _, rfl, rfl, queries⟩) (.swap _ _ (Node.Alike.refl _))
      (Node.Alike.refl _)

/-- Filters of different conditions change places with their placements. -/
theorem arrange_swap_different {seen : List String} {first second : Restricted}
    (different : first.signature ≠ second.signature) (rest : List Placement) :
    Node.Alike (arrange seen (.restricted first :: .restricted second :: rest))
      (arrange seen (.restricted second :: .restricted first :: rest)) := by
  by_cases firstKnown : first.signature ∈ seen
  · rw [arrange_of_seen firstKnown]
    by_cases secondKnown : second.signature ∈ seen
    · rw [arrange_of_seen secondKnown, arrange_of_seen secondKnown, arrange_of_seen firstKnown]
      exact Node.Alike.refl _
    · rw [arrange_of_new secondKnown, arrange_of_new secondKnown,
        arrange_of_seen (List.mem_cons_of_mem _ firstKnown), restrictedTo_cons_other different]
      exact Node.Alike.refl _
  · rw [arrange_of_new firstKnown, restrictedTo_cons_other different.symm]
    by_cases secondKnown : second.signature ∈ seen
    · rw [arrange_of_seen (List.mem_cons_of_mem _ secondKnown), arrange_of_seen secondKnown,
        arrange_of_new firstKnown]
      exact Node.Alike.refl _
    · have secondNew : second.signature ∉ first.signature :: seen :=
      List.not_mem_cons_of_ne_of_not_mem different.symm secondKnown
      have firstNew : first.signature ∉ second.signature :: seen :=
        List.not_mem_cons_of_ne_of_not_mem different firstKnown
      rw [arrange_of_new secondNew, arrange_of_new secondKnown, arrange_of_new firstNew,
        restrictedTo_cons_other different]
      have sameSeen : ∀ signature, signature ∈ second.signature :: first.signature :: seen ↔
          signature ∈ first.signature :: second.signature :: seen := by
        intro signature
        rw [List.mem_cons, List.mem_cons, List.mem_cons, List.mem_cons, or_left_comm]
      rw [arrange_of_same_seen sameSeen]
      exact .swap _ _ (Node.Alike.refl _)

/-- Separate placements in another order make a level in another order. -/
theorem Alike.arrange {left right : List Placement} (alike : Alike left right)
    (separate : Separate left) (seen : List String) :
    Node.Alike (arrange seen left) (arrange seen right) := by
  induction alike generalizing seen with
  | nil => exact .nil
  | plain children _ restHypothesis =>
      exact .cons (Or.inl rfl) children (restHypothesis (separate_plain_cons.mp separate).2 seen)
  | restricted metric rest restHypothesis =>
      have restSeparate := (separate_restricted_cons.mp separate).2
      by_cases known : metric.signature ∈ seen
      · rw [arrange_of_seen known, arrange_of_seen known]
        exact restHypothesis restSeparate seen
      · rw [arrange_of_new known, arrange_of_new known]
        exact .cons (Or.inl rfl) ((rest.restrictedTo _).cons_same metric.node)
          (restHypothesis restSeparate _)
  | swap first second rest =>
      rw [separate_iff_pairwise, List.pairwise_cons] at separate
      have apart : first.Apart second := separate.1 second List.mem_cons_self
      cases first with
      | plain node =>
          cases second with
          | plain other => exact .swap node other (Node.Alike.refl _)
          | restricted metric => exact arrange_swap_plain seen node metric rest
      | restricted metric =>
          cases second with
          | plain node => exact (arrange_swap_plain seen node metric rest).symm
          | restricted other =>
              by_cases shared : metric.signature = other.signature
              · exact arrange_swap_shared shared (apart shared).1 rest
              · exact arrange_swap_different shared rest
  | trans first _ firstHypothesis secondHypothesis =>
      exact (firstHypothesis separate seen).trans
        (secondHypothesis (first.separate separate) seen)

end Placement

/-! ### Entries -/

/-- Entries in another order, on their level and below. -/
inductive Entry.Rearranged : List Entry → List Entry → Prop where
  | nil : Rearranged [] []
  | metric (declaration : Declaration) {left right : List Entry}
      (rest : Rearranged left right) :
      Rearranged (.metric declaration :: left) (.metric declaration :: right)
  | group (key : GroupKey) {leftInner rightInner left right : List Entry}
      (inner : Rearranged leftInner rightInner) (rest : Rearranged left right) :
      Rearranged (.group key leftInner :: left) (.group key rightInner :: right)
  | swap (first second : Entry) (rest : List Entry) :
      Rearranged (first :: second :: rest) (second :: first :: rest)
  | trans {left middle right : List Entry} (first : Rearranged left middle)
      (second : Rearranged middle right) : Rearranged left right

theorem Entry.Rearranged.symm {left right : List Entry} (rearranged : Rearranged left right) :
    Rearranged right left := by
  induction rearranged with
  | nil => exact .nil
  | metric declaration _ restHypothesis => exact .metric declaration restHypothesis
  | group key _ _ innerHypothesis restHypothesis =>
      exact .group key innerHypothesis restHypothesis
  | swap first second rest => exact .swap second first rest
  | trans _ _ firstHypothesis secondHypothesis => exact secondHypothesis.trans firstHypothesis

namespace Spec

variable {options : BuilderOptions}

private theorem atInnerLevels_of_subset {property : List Entry → Prop} {left right : List Entry}
    (within : AtInnerLevels property left) (subset : ∀ entry ∈ right, entry ∈ left) :
    AtInnerLevels property right :=
  fun key inner member => within key inner (subset _ member)

/-- Entries in another order have placements as well. If the levels below are separate, they
are the same placements in another order, and the levels below stay separate. -/
theorem placements_rearranged {left right : List Entry} {placed : List Placement}
    (rearranged : Entry.Rearranged left right)
    (placing : Entry.placements options left = .ok placed) :
    ∃ others, Entry.placements options right = .ok others ∧
      (AtInnerLevels (LevelSeparate options) left →
        Placement.Alike placed others ∧ AtInnerLevels (LevelSeparate options) right) := by
  induction rearranged generalizing placed with
  | nil =>
      cases placing
      exact ⟨[], rfl, fun within => ⟨.nil, within⟩⟩
  | metric declaration _ restHypothesis =>
      obtain ⟨first, rest, firstPlaced, restPlaced, rfl⟩ :=
        Entry.placements_cons_eq_ok.mp placing
      obtain ⟨others, othersPlaced, alike⟩ := restHypothesis restPlaced
      refine ⟨first :: others, ?_, ?_⟩
      · exact Entry.placements_cons_eq_ok.mpr ⟨_, _, firstPlaced, othersPlaced, rfl⟩
      · rw [atInnerLevels_metric_cons, atInnerLevels_metric_cons]
        intro within
        obtain ⟨restAlike, restWithin⟩ := alike within
        exact ⟨restAlike.cons_same first, restWithin⟩
  | group key inner _ innerHypothesis restHypothesis =>
      obtain ⟨first, rest, firstPlaced, restPlaced, rfl⟩ :=
        Entry.placements_cons_eq_ok.mp placing
      obtain ⟨node, inside, keyed, grouped, rfl⟩ := Entry.placement_group_eq_ok.mp firstPlaced
      obtain ⟨otherInside, otherGrouped, insideAlike⟩ := innerHypothesis grouped
      obtain ⟨others, othersPlaced, alike⟩ := restHypothesis restPlaced
      have otherFirst := Entry.placement_group_eq_ok.mpr ⟨node, otherInside, keyed,
        otherGrouped, rfl⟩
      refine ⟨_, Entry.placements_cons_eq_ok.mpr ⟨_, _, otherFirst, othersPlaced, rfl⟩, ?_⟩
      rw [atInnerLevels_group_cons, atInnerLevels_group_cons, atEveryLevel_iff,
        atEveryLevel_iff]
      rintro ⟨⟨⟨also, groupedAlso, separate⟩, withinInner⟩, withinRest⟩
      rw [grouped] at groupedAlso
      cases groupedAlso
      obtain ⟨innerAlike, otherWithin⟩ := insideAlike withinInner
      obtain ⟨restAlike, restWithin⟩ := alike withinRest
      refine ⟨.plain (innerAlike.arrange separate []) restAlike, ⟨?_, otherWithin⟩, restWithin⟩
      exact ⟨otherInside, otherGrouped, innerAlike.separate separate⟩
  | swap first second rest =>
      obtain ⟨firstPlaced, _, placingFirst, placingTail, rfl⟩ :=
        Entry.placements_cons_eq_ok.mp placing
      obtain ⟨secondPlaced, others, placingSecond, placingRest, rfl⟩ :=
        Entry.placements_cons_eq_ok.mp placingTail
      have swapped := Entry.placements_cons_eq_ok.mpr ⟨_, _, placingFirst, placingRest, rfl⟩
      refine ⟨_, Entry.placements_cons_eq_ok.mpr ⟨_, _, placingSecond, swapped, rfl⟩, ?_⟩
      intro within
      refine ⟨.swap firstPlaced secondPlaced others, atInnerLevels_of_subset within ?_⟩
      exact fun entry member => (List.Perm.swap first second rest).mem_iff.mp member
  | trans _ _ firstHypothesis secondHypothesis =>
      obtain ⟨middle, middlePlaced, firstAlike⟩ := firstHypothesis placing
      obtain ⟨others, othersPlaced, secondAlike⟩ := secondHypothesis middlePlaced
      refine ⟨others, othersPlaced, fun within => ?_⟩
      obtain ⟨toMiddle, middleWithin⟩ := firstAlike within
      obtain ⟨toOthers, othersWithin⟩ := secondAlike middleWithin
      exact ⟨toMiddle.trans toOthers, othersWithin⟩

/-- Separate levels stay separate in another order. -/
theorem separate_rearranged {left right : List Entry}
    (rearranged : Entry.Rearranged left right)
    (separate : AtEveryLevel (LevelSeparate options) left) :
    AtEveryLevel (LevelSeparate options) right := by
  rw [atEveryLevel_iff] at separate ⊢
  obtain ⟨⟨placed, placing, levelSeparate⟩, within⟩ := separate
  obtain ⟨others, othersPlaced, alike⟩ := placements_rearranged rearranged placing
  obtain ⟨toOthers, othersWithin⟩ := alike within
  exact ⟨⟨others, othersPlaced, toOthers.separate levelSeparate⟩, othersWithin⟩

/-- Specifications in another order are built alike: both or neither, and then into the same
request in another order. -/
theorem build_rearranged {spec other : Spec} {placed : List Placement}
    (rearranged : Entry.Rearranged spec.entries other.entries)
    (placing : Entry.placements options spec.entries = .ok placed) :
    ((∃ built, (spec.build options).outcome = .ok built) ↔
        ∃ built, (other.build options).outcome = .ok built) ∧
      ∀ built otherBuilt, (spec.build options).outcome = .ok built →
        (other.build options).outcome = .ok otherBuilt →
          Node.Alike built.nodes otherBuilt.nodes := by
  obtain ⟨others, othersPlaced, alike⟩ := placements_rearranged rearranged placing
  refine ⟨⟨?_, ?_⟩, ?_⟩
  · rintro ⟨built, succeeds⟩
    have separate := ((build_eq_ok_iff placing).mp succeeds).1
    exact ⟨_, (build_eq_ok_iff othersPlaced).mpr ⟨separate_rearranged rearranged separate, rfl⟩⟩
  · rintro ⟨built, succeeds⟩
    have separate := ((build_eq_ok_iff othersPlaced).mp succeeds).1
    exact ⟨_, (build_eq_ok_iff placing).mpr
      ⟨separate_rearranged rearranged.symm separate, rfl⟩⟩
  · intro built otherBuilt succeeds otherSucceeds
    obtain ⟨separate, rfl⟩ := (build_eq_ok_iff placing).mp succeeds
    obtain ⟨_, rfl⟩ := (build_eq_ok_iff othersPlaced).mp otherSucceeds
    rw [atEveryLevel_iff] at separate
    obtain ⟨⟨also, placingAlso, levelSeparate⟩, within⟩ := separate
    rw [placing] at placingAlso
    cases placingAlso
    exact (alike within).1.arrange levelSeparate []

end Spec

end Facet
