import Facet.Proofs.Result.Lookup

/-!
The diagnosis of a missing result.

A look-up that finds nothing reports the results that there are, without the names that the engine
uses for itself. In the sub-tree of a bucket or of a filter there are no such names, and the report
is complete. The tree of a whole response keeps every name: there, a result with one of the
engine's names is a result like any other, but the report leaves it out.

Owns:
- the trees that a reader comes to from a response, by the number of its steps;
- the complete diagnosis of a missing result;
- that the diagnosis is complete exactly on trees without reserved names, and so on all sub-trees;
- a group at the top of a response that is not reported.
-/

namespace Facet

/-- Every value of a row that was computed has a value that it was computed from. -/
theorem Outcome.exists_of_mem_mapM {α β : Type} {run : α → Except Error β} {row : List α}
    {results : List β} {result : β} (succeeds : row.mapM run = .ok results)
    (member : result ∈ results) : ∃ value ∈ row, run value = .ok result := by
  induction row generalizing results with
  | nil =>
      cases succeeds
      cases member
  | cons value rest inductionHypothesis =>
      simp only [List.mapM_cons, Outcome.bind_eq_ok, Outcome.pure_eq_ok] at succeeds
      obtain ⟨first, firstSucceeds, others, restSucceeds, rfl⟩ := succeeds
      rcases List.mem_cons.mp member with rfl | later
      · exact ⟨value, List.mem_cons_self, firstSucceeds⟩
      · obtain ⟨found, placed, foundSucceeds⟩ := inductionHypothesis restSucceeds later
        exact ⟨found, List.mem_cons_of_mem _ placed, foundSucceeds⟩

namespace Tree

/-! ### Trees of a response -/

/-- The trees that a reader comes to from a response, with the number of its steps: into one
bucket of a result, or into the sub-tree of a filter. -/
inductive Reached (response : Json) : Nat → Tree → Prop where
  | whole {tree : Tree} (read : Tree.ofJson response = .ok tree) : Reached response 0 tree
  | bucket {steps : Nat} {tree : Tree} {name : String} {buckets : List Bucket} {bucket : Bucket}
      (outer : Reached response steps tree) (read : (tree.buckets name).outcome = .ok buckets)
      (member : bucket ∈ buckets) : Reached response (steps + 1) bucket.tree
  | filter {steps : Nat} {tree inner : Tree} {name : String}
      (outer : Reached response steps tree) (read : (tree.subTree name).outcome = .ok inner) :
      Reached response (steps + 1) inner

theorem results_eq_ok_iff {name : String} {body : Json} {members : Members} :
    body.results name = .ok members ↔ body = .object members := by
  cases body with
  | object own => simp [Json.results, Json.asObject?]
  | _ => exact iff_of_false nofun nofun

/-- A bucket has its tree from a result object. -/
theorem takenFrom_of_bucket {tree : Tree} {name : String} {buckets : List Bucket}
    {bucket : Bucket} (read : (tree.buckets name).outcome = .ok buckets)
    (member : bucket ∈ buckets) : ∃ members, TakenFrom members bucket.tree := by
  obtain ⟨body, _, opened⟩ := Traced.bind_outcome_eq_ok.mp read
  have listed : body.buckets name = .ok buckets := opened
  unfold Json.buckets at listed
  split at listed
  · next items _ =>
      obtain ⟨item, _, itemRead⟩ := Outcome.exists_of_mem_mapM listed member
      obtain ⟨members, object, _⟩ := Outcome.bind_eq_ok.mp itemRead
      cases results_eq_ok_iff.mp object
      exact ⟨members, .bucket itemRead⟩
  · cases listed

/-- The sub-tree of a filter is taken from a result object. -/
theorem takenFrom_of_subTree {outer tree : Tree} {name : String}
    (read : (outer.subTree name).outcome = .ok tree) :
    ∃ members, TakenFrom members tree := by
  obtain ⟨body, looked, opened⟩ := Traced.bind_outcome_eq_ok.mp read
  obtain ⟨members, object, _⟩ := Traced.bind_outcome_eq_ok.mp opened
  cases results_eq_ok_iff.mp object
  cases found : outer.find? name with
  | none =>
      rw [lookup_of_missing found] at looked
      cases looked
  | some value =>
      have present : outer.lookup name = pure value := Members.lookup_of_found found
      rw [present] at looked
      cases looked
      exact ⟨members, .filter found read⟩

/-- Whatever is taken from a result object has no reserved names. -/
theorem free_of_takenFrom {members : Members} {tree : Tree} (taken : TakenFrom members tree) :
    ∀ name ∈ tree.names, isReserved name = false := by
  intro name named
  rw [names, members_of_takenFrom taken] at named
  obtain ⟨member, kept, rfl⟩ := List.mem_map.mp named
  have free := (List.mem_filter.mp kept).2
  rw [Bool.and_eq_true, Bool.not_eq_true'] at free
  exact free.1

/-- After the first step, a reader meets no reserved names. -/
theorem Reached.free {response : Json} {steps : Nat} {tree : Tree}
    (reached : Reached response steps tree) (below : 0 < steps) :
    ∀ name ∈ tree.names, isReserved name = false := by
  cases reached with
  | whole _ => cases below
  | bucket _ read member =>
      obtain ⟨_, taken⟩ := takenFrom_of_bucket read member
      exact free_of_takenFrom taken
  | filter _ read =>
      obtain ⟨_, taken⟩ := takenFrom_of_subTree read
      exact free_of_takenFrom taken

/-! ### Diagnoses -/

/-- The complete diagnosis of a missing result: that the tree is empty, or the names that it
has, in the engine's order. -/
def diagnosis (tree : Tree) (name : String) : Error :=
  if tree.isEmpty then .noAggregations name else .noSuchAggregation name tree.names

private theorem find?_eq_none_of_not_mem {tree : Tree} {name : String}
    (missed : name ∉ tree.names) : tree.find? name = none := by
  cases found : tree.find? name with
  | none => rfl
  | some _ => exact absurd (mem_names_of_find? found) missed

theorem missing_eq_noAggregations_iff {tree : Tree} {name : String} :
    tree.missing name = .noAggregations name ↔
      ∀ other ∈ tree.names, isReserved other = true := by
  have nothing : tree.names.filter (!isReserved ·) = [] ↔
      ∀ other ∈ tree.names, isReserved other = true := by
    simp [List.filter_eq_nil_iff]
  rw [← nothing]
  unfold missing
  by_cases left : tree.names.filter (!isReserved ·) = []
  · simp [left]
  · simp [left, -List.filter_eq_nil_iff]

theorem missing_eq_noSuchAggregation_iff {tree : Tree} {name : String} {present : List String} :
    tree.missing name = .noSuchAggregation name present ↔
      present ≠ [] ∧ present = tree.names.filter (!isReserved ·) := by
  unfold missing
  by_cases left : tree.names.filter (!isReserved ·) = []
  · simp [left]
  · simp only [List.isEmpty_iff, left, if_false, Error.noSuchAggregation.injEq, true_and]
    constructor
    · rintro rfl
      exact ⟨left, rfl⟩
    · rintro ⟨_, rfl⟩
      rfl

theorem names_eq_nil_iff {tree : Tree} : tree.names = [] ↔ tree.isEmpty = true := by
  rw [names, Members.names, List.map_eq_nil_iff, isEmpty, List.isEmpty_iff]

/-- The report is complete exactly if there is nothing to be left out. -/
theorem missing_eq_diagnosis_iff {tree : Tree} {name : String} :
    tree.missing name = tree.diagnosis name ↔
      ∀ other ∈ tree.names, isReserved other = false := by
  unfold diagnosis
  by_cases empty : tree.names = []
  · rw [if_pos (names_eq_nil_iff.mp empty), missing_eq_noAggregations_iff, empty]
    exact iff_of_true nofun nofun
  · rw [if_neg fun isEmpty => empty (names_eq_nil_iff.mpr isEmpty),
      missing_eq_noSuchAggregation_iff, eq_comm, List.filter_eq_self]
    simp [empty]

/-- **What is reported of a missing result.** In every tree that a reader comes to, a look-up
under a name that is missing fails. The error is the complete diagnosis if and only if no name in
the tree is reserved: it says that there are no results exactly if all names are reserved, and
otherwise lists those that are not, in the engine's order. After the first step into a bucket or a
filter the diagnosis is always complete. -/
theorem missing_diagnosed_iff {response : Json} {steps : Nat} {tree : Tree} {name : String}
    (reached : Reached response steps tree) (missed : name ∉ tree.names) :
    ∃ error, (tree.lookup name).outcome = .error error ∧
      (error = tree.diagnosis name ↔ ∀ other ∈ tree.names, isReserved other = false) ∧
      (error = .noAggregations name ↔ ∀ other ∈ tree.names, isReserved other = true) ∧
      (∀ present, error = .noSuchAggregation name present ↔
        present ≠ [] ∧ present = tree.names.filter (!isReserved ·)) ∧
      (0 < steps → error = tree.diagnosis name) := by
  refine ⟨tree.missing name, lookup_of_missing (find?_eq_none_of_not_mem missed),
    missing_eq_diagnosis_iff, missing_eq_noAggregations_iff,
    fun _ => missing_eq_noSuchAggregation_iff, ?_⟩
  intro below
  exact missing_eq_diagnosis_iff.mpr (reached.free below)

end Tree

namespace Spec

/-- In a bucket, the engine's own members are no part of the report. -/
theorem sedan_diagnosed :
    ∃ bucket : Bucket, Tree.Reached (.object weightsByType) 1 bucket.tree ∧
      "MaxWeight" ∉ bucket.tree.names ∧
      (bucket.tree.lookup "MaxWeight").outcome = .error (bucket.tree.diagnosis "MaxWeight") ∧
      bucket.tree.diagnosis "MaxWeight" =
        .noSuchAggregation "MaxWeight" ["SumWeight", "isNew"] := by
  obtain ⟨bucket, read⟩ : ∃ bucket, Bucket.ofJson "carType" (.object sedanWeights) = .ok bucket :=
    ⟨_, rfl⟩
  have listed : ((Tree.mk weightsByType).buckets "carType").outcome = .ok [bucket] := by
    cases read
    rfl
  have reached : Tree.Reached (.object weightsByType) 1 bucket.tree :=
    .bucket (.whole rfl) listed List.mem_cons_self
  have names : bucket.tree.names = ["SumWeight", "isNew"] := by
    cases read
    rfl
  have missed : "MaxWeight" ∉ bucket.tree.names := by
    rw [names]
    decide
  obtain ⟨error, fails, _, _, _, complete⟩ := Tree.missing_diagnosed_iff reached missed
  rw [complete Nat.one_pos] at fails
  refine ⟨bucket, reached, missed, fails, ?_⟩
  cases read
  rfl

/-! ### A group that is not reported -/

/-- What the engine returns for the weight by a property that has the name of its metadata. -/
def byMeta : Members :=
  [("meta", .object [("buckets", .array [.object [("key", .string "a"),
    ("doc_count", .number (.integer 1)),
    ("SumWeight", .object [("value", .number (.integer 1400))])]])])]

/-- A response with one group, which is named like the engine's metadata, is reported to have no
results. -/
theorem group_named_meta_is_not_reported :
    ∃ built tree, (((Spec.mk [.metric (.measure .sum (.property "Weight") none)]).groupBy
        (.field (.property "Meta"))).build .standard).outcome = .ok built ∧
      IsAnswer built.nodes byMeta ∧ Tree.ofJson (.object byMeta) = .ok tree ∧
      tree.isEmpty = false ∧ tree.names = ["meta"] ∧
      (tree.lookup "SumWeight").outcome = .error (.noAggregations "SumWeight") := by
  refine ⟨_, _, rfl, ?_, rfl, rfl, rfl, rfl⟩
  exact ⟨by decide, List.forall_mem_singleton.mpr ⟨_, rfl⟩, by decide⟩

end Spec

end Facet
