import Facet.Aggregation.Node
import Facet.Proofs.Outcome
import Facet.Result.Tree

/-!
What a sub-tree keeps of the results that it is taken from.

Sub-trees are taken without the request at hand: results are told from the engine's own members
by reserved names. A result of a reserved name is therefore lost.

Owns:
- the result objects that the engine may return for the children of a node;
- the sub-trees that are taken from a result object, of a bucket or of a filter;
- that a sub-tree has exactly the results if and only if no child has a reserved name.

Does not own: the names of children, and how sub-trees are reached.
-/

namespace Facet

/-! ### Members -/

namespace Members

theorem mem_of_find? {members : Members} {name : String} {value : Json}
    (found : find? members name = some value) : (name, value) ∈ members := by
  induction members with
  | nil => cases found
  | cons member rest inductionHypothesis =>
      obtain ⟨other, kept⟩ := member
      simp only [find?, List.lookup_cons] at found
      by_cases same : name = other
      · subst same
        simp only [beq_self_eq_true, Option.some.injEq] at found
        rw [found]
        exact List.mem_cons_self
      · simp only [beq_eq_false_iff_ne.mpr same] at found
        exact List.mem_cons_of_mem _ (inductionHypothesis found)

/-- In an object with distinct names every member is found. -/
theorem find?_of_mem {members : Members} {name : String} {value : Json}
    (unique : (names members).Nodup) (member : (name, value) ∈ members) :
    find? members name = some value := by
  induction members with
  | nil => cases member
  | cons first rest inductionHypothesis =>
      obtain ⟨other, kept⟩ := first
      obtain ⟨new, restUnique⟩ := List.nodup_cons.mp unique
      rcases List.mem_cons.mp member with same | later
      · cases same
        simp [find?]
      · have different : (name == other) = false := by
          rw [beq_eq_false_iff_ne]
          rintro rfl
          exact new (List.mem_map.mpr ⟨(name, value), later, rfl⟩)
        simp only [find?, List.lookup_cons, different]
        exact inductionHypothesis restUnique later

/-- A value that is kept is found among all that is kept. -/
theorem find?_filter_of_kept {keep : String × Json → Bool} {members : Members} {name : String}
    {value : Json} (found : find? members name = some value) (kept : keep (name, value) = true) :
    find? (members.filter keep) name = some value := by
  induction members with
  | nil => cases found
  | cons member rest inductionHypothesis =>
      obtain ⟨other, first⟩ := member
      simp only [find?, List.lookup_cons] at found
      by_cases same : name = other
      · subst same
        simp only [beq_self_eq_true, Option.some.injEq] at found
        subst found
        rw [List.filter_cons, if_pos kept]
        simp [find?]
      · have different : (name == other) = false := beq_eq_false_iff_ne.mpr same
        simp only [different] at found
        rw [List.filter_cons]
        split
        · simp only [find?, List.lookup_cons, different]
          exact inductionHypothesis found
        · exact inductionHypothesis found

/-- A result of a free name is found in the sub-tree. -/
theorem find?_subResults_of_free {members inside : Members} {name : String}
    (found : find? members name = some (.object inside)) (free : isReserved name = false) :
    find? (subResults members) name = some (.object inside) := by
  refine find?_filter_of_kept found ?_
  simp [free, Json.isObject]

/-- Nothing is found under a reserved name. -/
theorem find?_subResults_of_reserved {name : String} (reserved : isReserved name = true)
    (members : Members) : find? (subResults members) name = none := by
  cases found : find? (subResults members) name with
  | none => rfl
  | some value =>
      have member := mem_of_find? found
      rw [subResults, List.mem_filter] at member
      simp [reserved] at member

end Members

/-! ### Result objects -/

/-- The names that the engine gives to its own members of a bucket. -/
def bookkeepingNames : List String :=
  ["key", "key_as_string", "doc_count"]

/-- What the engine may return for one bucket or one filter: under the name of each child its
result, which is an object, and besides these only the engine's own members. -/
structure IsAnswer (children : List Node) (members : Members) : Prop where
  unique : (Members.names members).Nodup
  results : ∀ child ∈ children,
    ∃ result, Members.find? members child.name = some (.object result)
  others : ∀ member ∈ members,
    (∃ child ∈ children, child.name = member.1) ∨ member.1 ∈ bookkeepingNames

/-- The members of a result object that are results of some nodes, in the engine's order. -/
def resultsOf (children : List Node) (members : Members) : Members :=
  members.filter fun member => children.any (·.name == member.1)

theorem isReserved_of_bookkeeping {name : String} (member : name ∈ bookkeepingNames) :
    isReserved name = true := by
  simp only [bookkeepingNames, List.mem_cons, List.not_mem_nil, or_false] at member
  rcases member with rfl | rfl | rfl <;> rfl

/-- **What a sub-tree keeps.** It has the results of all children, as they are and in order, if
and only if no child has a reserved name. -/
theorem subResults_eq_resultsOf_iff {children : List Node} {members : Members}
    (answer : IsAnswer children members) :
    Members.subResults members = resultsOf children members ↔
      ∀ child ∈ children, isReserved child.name = false := by
  constructor
  · intro same child member
    obtain ⟨result, found⟩ := answer.results child member
    have declared : (child.name, .object result) ∈ resultsOf children members := by
      refine List.mem_filter.mpr ⟨Members.mem_of_find? found, ?_⟩
      exact List.any_eq_true.mpr ⟨child, member, beq_self_eq_true child.name⟩
    rw [← same, Members.subResults, List.mem_filter] at declared
    cases reserved : isReserved child.name with
    | false => rfl
    | true => simp [reserved] at declared
  · intro free
    refine List.filter_congr ?_
    rintro ⟨name, value⟩ member
    by_cases declared : ∃ child ∈ children, child.name = name
    · obtain ⟨child, placed, rfl⟩ := declared
      obtain ⟨result, found⟩ := answer.results child placed
      rw [Members.find?_of_mem answer.unique member] at found
      cases found
      have named : children.any (·.name == child.name) = true :=
        List.any_eq_true.mpr ⟨child, placed, beq_self_eq_true child.name⟩
      simp [free child placed, Json.isObject, named]
    · have reserved : isReserved name = true := by
        rcases answer.others _ member with named | bookkeeping
        · exact absurd named declared
        · exact isReserved_of_bookkeeping bookkeeping
      have unnamed : children.any (·.name == name) = false := by
        rw [List.any_eq_false]
        intro child placed same
        exact declared ⟨child, placed, eq_of_beq same⟩
      simp [reserved, unnamed]

/-! ### Taking sub-trees -/

/-- The trees that are taken from a result object: that of a bucket, and the sub-tree of a
filter. -/
inductive Tree.TakenFrom : Members → Tree → Prop where
  | bucket {name : String} {members : Members} {bucket : Bucket}
      (read : Bucket.ofJson name (.object members) = .ok bucket) : TakenFrom members bucket.tree
  | filter {outer tree : Tree} {name : String} {members : Members}
      (found : outer.find? name = some (.object members))
      (read : (outer.subTree name).outcome = .ok tree) : TakenFrom members tree

theorem Bucket.ofJson_object_eq_ok {name : String} {members : Members} {bucket : Bucket} :
    Bucket.ofJson name (.object members) = .ok bucket ↔
      ∃ raw, Members.find? members "key" = some raw ∧
        bucket = {
          key := ⟨raw, (Members.find? members "key_as_string").bind Json.asString?⟩
          docCount := ((Members.find? members "doc_count").bind Json.asNat?).getD 0
          tree := ⟨Members.subResults members⟩ } := by
  have opened : (Json.object members).results name = .ok members := rfl
  rw [Bucket.ofJson, opened, Outcome.ok_bind]
  cases keyed : Members.find? members "key" with
  | none =>
      constructor
      · intro fails
        cases fails
      · rintro ⟨_, found, _⟩
        cases found
  | some raw =>
      constructor
      · intro succeeds
        cases succeeds
        exact ⟨raw, rfl, rfl⟩
      · rintro ⟨_, found, rfl⟩
        cases found
        rfl

theorem Members.lookup_of_found {members : Members} {name : String} {value : Json}
    (found : Members.find? members name = some value) :
    Members.lookup members name = pure value := by
  rw [Members.lookup, found]

private theorem Tree.subTree_of_found {outer : Tree} {name : String} {members : Members}
    (found : outer.find? name = some (.object members)) :
    (outer.subTree name).outcome = .ok ⟨Members.subResults members⟩ := by
  have looked : outer.lookup name = pure (.object members) := Members.lookup_of_found found
  rw [Tree.subTree, looked, Traced.outcome_bind, Traced.outcome_pure]
  rfl

/-- Whichever way a tree is taken, it has the members that are not the engine's own. -/
theorem Tree.members_of_takenFrom {members : Members} {tree : Tree}
    (taken : Tree.TakenFrom members tree) : tree.members = Members.subResults members := by
  cases taken with
  | bucket read =>
      obtain ⟨_, _, rfl⟩ := Bucket.ofJson_object_eq_ok.mp read
      rfl
  | filter found read =>
      rw [Tree.subTree_of_found found] at read
      cases read
      rfl

/-- A sub-tree can be taken from every result object. -/
theorem Tree.exists_takenFrom (members : Members) : ∃ tree, Tree.TakenFrom members tree := by
  have found : (Tree.mk [("filter", .object members)]).find? "filter" =
      some (.object members) := rfl
  exact ⟨_, .filter found (Tree.subTree_of_found found)⟩

end Facet
