import Facet.Aggregation.Build
import Facet.Proofs.Query.Same

/-!
Levels of a request, and what is placed on them.

Every entry of a specification places one node: on the level itself, or below the filter of
its condition. The level that results is described here without regard to how it is built, and
so is the condition under which nothing on it collides.

Owns:
- placements, and when the placements of a level are separate;
- the level that placements make, with nodes and filters in the order of first occurrence;
- that a placement extends a level if it is apart from everything before, and is refused
  otherwise.

Does not own: which placements a specification makes.
-/

namespace Facet

/-! ### Placements -/

/-- A node below the filter of a condition. -/
structure Restricted where
  signature : String
  query : Query
  node : Node
deriving Repr

/-- What one entry places on its level. -/
inductive Placement where
  | plain (node : Node)
  | restricted (metric : Restricted)
deriving Repr

namespace Placement

/-- The name that a placement takes on its level. -/
def name : Placement → String
  | .plain node => node.name
  | .restricted metric => metric.signature

/-- The name of a placement without a condition. -/
def plainName? : Placement → Option String
  | .plain node => some node.name
  | .restricted _ => none

def restricted? : Placement → Option Restricted
  | .plain _ => none
  | .restricted metric => some metric

/-- The node that a placement has below the filter of a signature. -/
def below? (signature : String) : Placement → Option Node
  | .plain _ => none
  | .restricted metric => if metric.signature = signature then some metric.node else none

/-- Two placements fit on one level. Only conditional ones share a name, if they mean the same
query and are named differently below it. -/
def Apart : Placement → Placement → Prop
  | .restricted first, .restricted second =>
      first.signature = second.signature →
        first.query.same second.query = true ∧ first.node.name ≠ second.node.name
  | first, second => first.name ≠ second.name

theorem Apart.symm {first second : Placement} (apart : first.Apart second) :
    second.Apart first := by
  cases first with
  | plain node =>
      cases second with
      | plain other => exact Ne.symm apart
      | restricted metric => exact Ne.symm apart
  | restricted metric =>
      cases second with
      | plain other => exact Ne.symm apart
      | restricted other =>
          intro shared
          obtain ⟨queries, names⟩ := apart shared.symm
          exact ⟨Query.same_symm _ _ queries, names.symm⟩

/-- Only placements below a filter come with a filter. -/
def IsProper : Placement → Prop
  | .plain node => ∀ query, node.operation ≠ .filter query
  | .restricted _ => True

end Placement

/-! ### Separate placements -/

/-- The placements of a level do not collide: the names without conditions are distinct, none
of them is a signature, and conditional placements with one signature mean one query and have
different names. -/
structure Separate (placements : List Placement) : Prop where
  names : (placements.filterMap Placement.plainName?).Nodup
  signatures : ∀ name ∈ placements.filterMap Placement.plainName?,
    ∀ metric ∈ placements.filterMap Placement.restricted?, name ≠ metric.signature
  queries : (placements.filterMap Placement.restricted?).Pairwise fun first second =>
    first.signature = second.signature → first.query.same second.query = true
  metrics : (placements.filterMap Placement.restricted?).Pairwise fun first second =>
    first.signature = second.signature → first.node.name ≠ second.node.name

theorem mem_plainNames {placements : List Placement} {name : String} :
    name ∈ placements.filterMap Placement.plainName? ↔
      ∃ node, Placement.plain node ∈ placements ∧ node.name = name := by
  rw [List.mem_filterMap]
  constructor
  · rintro ⟨placement, member, named⟩
    cases placement with
    | plain node => exact ⟨node, member, Option.some.inj named⟩
    | restricted _ => cases named
  · rintro ⟨node, member, rfl⟩
    exact ⟨.plain node, member, rfl⟩

theorem mem_restricted {placements : List Placement} {metric : Restricted} :
    metric ∈ placements.filterMap Placement.restricted? ↔
      Placement.restricted metric ∈ placements := by
  rw [List.mem_filterMap]
  constructor
  · rintro ⟨placement, member, found⟩
    cases placement with
    | plain _ => cases found
    | restricted other =>
        cases found
        exact member
  · intro member
    exact ⟨.restricted metric, member, rfl⟩

theorem separate_nil : Separate [] := ⟨.nil, nofun, .nil, .nil⟩

theorem separate_plain_cons {node : Node} {rest : List Placement} :
    Separate (.plain node :: rest) ↔
      (∀ other ∈ rest, (Placement.plain node).Apart other) ∧ Separate rest := by
  constructor
  · rintro ⟨names, signatures, queries, metrics⟩
    simp only [List.filterMap_cons, Placement.plainName?, Placement.restricted?,
      List.nodup_cons, List.forall_mem_cons] at names signatures queries metrics
    refine ⟨?_, names.2, signatures.2, queries, metrics⟩
    intro other member
    cases other with
    | plain second =>
        intro same
        exact names.1 (mem_plainNames.mpr ⟨second, member, same.symm⟩)
    | restricted metric => exact signatures.1 metric (mem_restricted.mpr member)
  · rintro ⟨apart, names, signatures, queries, metrics⟩
    refine ⟨?_, ?_, queries, metrics⟩
    · simp only [List.filterMap_cons, Placement.plainName?, List.nodup_cons]
      refine ⟨?_, names⟩
      intro taken
      obtain ⟨other, member, same⟩ := mem_plainNames.mp taken
      exact apart _ member same.symm
    · simp only [List.filterMap_cons, Placement.plainName?, Placement.restricted?,
        List.forall_mem_cons]
      exact ⟨fun metric member => apart _ (mem_restricted.mp member), signatures⟩

theorem separate_restricted_cons {metric : Restricted} {rest : List Placement} :
    Separate (.restricted metric :: rest) ↔
      (∀ other ∈ rest, (Placement.restricted metric).Apart other) ∧ Separate rest := by
  constructor
  · rintro ⟨names, signatures, queries, metrics⟩
    simp only [List.filterMap_cons, Placement.plainName?, Placement.restricted?,
      List.pairwise_cons, List.forall_mem_cons] at names signatures queries metrics
    refine ⟨?_, names, fun name member => (signatures name member).2, queries.2, metrics.2⟩
    intro other member
    cases other with
    | plain node =>
        have placed := mem_plainNames.mpr ⟨node, member, rfl⟩
        exact (signatures _ placed).1.symm
    | restricted second =>
        have placed := mem_restricted.mpr member
        exact fun shared => ⟨queries.1 second placed shared, metrics.1 second placed shared⟩
  · rintro ⟨apart, names, signatures, queries, metrics⟩
    refine ⟨names, ?_, ?_, ?_⟩
    · intro name member
      simp only [List.filterMap_cons, Placement.plainName?] at member
      simp only [List.filterMap_cons, Placement.restricted?, List.forall_mem_cons]
      obtain ⟨node, placed, rfl⟩ := mem_plainNames.mp member
      exact ⟨Ne.symm (apart _ placed), signatures _ member⟩
    · simp only [List.filterMap_cons, Placement.restricted?, List.pairwise_cons]
      exact ⟨fun second member shared => (apart _ (mem_restricted.mp member) shared).1, queries⟩
    · simp only [List.filterMap_cons, Placement.restricted?, List.pairwise_cons]
      exact ⟨fun second member shared => (apart _ (mem_restricted.mp member) shared).2, metrics⟩

/-- Placements are separate exactly if any two of them are apart. -/
theorem separate_iff_pairwise {placements : List Placement} :
    Separate placements ↔ placements.Pairwise Placement.Apart := by
  induction placements with
  | nil =>
      constructor
      · intro _
        exact .nil
      · intro _
        exact separate_nil
  | cons placement rest inductionHypothesis =>
      rw [List.pairwise_cons, ← inductionHypothesis]
      cases placement with
      | plain node => exact separate_plain_cons
      | restricted metric => exact separate_restricted_cons

/-- Separate placements go on being separate exactly if the next one is apart from all. -/
theorem separate_concat {placements : List Placement} {placement : Placement} :
    Separate (placements ++ [placement]) ↔
      Separate placements ∧ ∀ earlier ∈ placements, earlier.Apart placement := by
  rw [separate_iff_pairwise, separate_iff_pairwise, List.pairwise_append]
  simp

theorem Separate.of_append_left {first later : List Placement}
    (separate : Separate (first ++ later)) : Separate first := by
  rw [separate_iff_pairwise, List.pairwise_append] at separate
  exact separate_iff_pairwise.mpr separate.1

/-- The order of placements has no part in their being separate. -/
theorem Separate.of_perm {left right : List Placement} (separate : Separate left)
    (permutation : left.Perm right) : Separate right := by
  rw [separate_iff_pairwise] at separate ⊢
  exact (permutation.pairwise_iff Placement.Apart.symm).mp separate

/-! ### The level of some placements -/

/-- The nodes below the filter of a signature, in the order of their declaration. -/
def restrictedTo (signature : String) (placements : List Placement) : List Node :=
  placements.filterMap (Placement.below? signature)

/-- The level of some placements, without the filters of the signatures already seen. The first
placement of a signature places the filter, with all that belongs below it. -/
def arrange (seen : List String) : List Placement → List Node
  | [] => []
  | .plain node :: rest => node :: arrange seen rest
  | .restricted metric :: rest =>
      if metric.signature ∈ seen then
        arrange seen rest
      else
        .mk metric.signature (.filter metric.query)
            (metric.node :: restrictedTo metric.signature rest) ::
          arrange (metric.signature :: seen) rest

@[simp] theorem restrictedTo_nil (signature : String) : restrictedTo signature [] = [] := rfl

@[simp] theorem restrictedTo_append (signature : String) (first later : List Placement) :
    restrictedTo signature (first ++ later) =
      restrictedTo signature first ++ restrictedTo signature later :=
  List.filterMap_append

@[simp] theorem restrictedTo_plain_cons (signature : String) (node : Node) (rest : List Placement) :
    restrictedTo signature (.plain node :: rest) = restrictedTo signature rest := rfl

@[simp] theorem restrictedTo_cons_same (metric : Restricted) (rest : List Placement) :
    restrictedTo metric.signature (.restricted metric :: rest) =
      metric.node :: restrictedTo metric.signature rest := by
  simp [restrictedTo, Placement.below?]

theorem restrictedTo_cons_other {metric : Restricted} {signature : String}
    (other : metric.signature ≠ signature) (rest : List Placement) :
    restrictedTo signature (.restricted metric :: rest) = restrictedTo signature rest := by
  simp [restrictedTo, Placement.below?, other]

theorem mem_restrictedTo {signature : String} {placements : List Placement} {node : Node} :
    node ∈ restrictedTo signature placements ↔
      ∃ metric, Placement.restricted metric ∈ placements ∧ metric.signature = signature ∧
        metric.node = node := by
  rw [restrictedTo, List.mem_filterMap]
  constructor
  · rintro ⟨placement, member, found⟩
    cases placement with
    | plain _ => cases found
    | restricted metric =>
        simp only [Placement.below?, Option.ite_none_right_eq_some, Option.some.injEq] at found
        exact ⟨metric, member, found.1, found.2⟩
  · rintro ⟨metric, member, rfl, rfl⟩
    exact ⟨.restricted metric, member, by simp [Placement.below?]⟩

theorem arrange_of_seen {metric : Restricted} {seen : List String}
    (known : metric.signature ∈ seen) (rest : List Placement) :
    arrange seen (.restricted metric :: rest) = arrange seen rest := by
  rw [arrange, if_pos known]

theorem arrange_of_new {metric : Restricted} {seen : List String}
    (new : metric.signature ∉ seen) (rest : List Placement) :
    arrange seen (.restricted metric :: rest) =
      .mk metric.signature (.filter metric.query)
          (metric.node :: restrictedTo metric.signature rest) ::
        arrange (metric.signature :: seen) rest := by
  rw [arrange, if_neg new]

/-- Every node of a level has the name of a placement that is not under a signature seen. -/
theorem placement_of_mem_arrange {seen : List String} {placements : List Placement} {node : Node}
    (member : node ∈ arrange seen placements) :
    ∃ placement ∈ placements, placement.name = node.name ∧
      ∀ metric, placement = .restricted metric → metric.signature ∉ seen := by
  induction placements generalizing seen with
  | nil => cases member
  | cons placement rest inductionHypothesis =>
      cases placement with
      | plain first =>
          rcases List.mem_cons.mp member with rfl | later
          · exact ⟨.plain node, List.mem_cons_self, rfl, nofun⟩
          · obtain ⟨found, placed, named, new⟩ := inductionHypothesis later
            exact ⟨found, List.mem_cons_of_mem _ placed, named, new⟩
      | restricted metric =>
          by_cases known : metric.signature ∈ seen
          · rw [arrange_of_seen known] at member
            obtain ⟨found, placed, named, new⟩ := inductionHypothesis member
            exact ⟨found, List.mem_cons_of_mem _ placed, named, new⟩
          · rw [arrange_of_new known] at member
            rcases List.mem_cons.mp member with rfl | later
            · refine ⟨.restricted metric, List.mem_cons_self, rfl, ?_⟩
              rintro _ ⟨⟩
              exact known
            · obtain ⟨found, placed, named, new⟩ := inductionHypothesis later
              refine ⟨found, List.mem_cons_of_mem _ placed, named, ?_⟩
              exact fun other same seenBefore => new other same (List.mem_cons_of_mem _ seenBefore)

end Facet
