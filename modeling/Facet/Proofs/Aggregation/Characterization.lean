import Facet.Proofs.Aggregation.Matching
import Facet.Proofs.Aggregation.Reordering

/-!
Which specifications are built, and into what.

Owns:
- the exact condition under which a specification without faults of its own is built;
- the levels of the request, and their independence of the order of declarations;
- a grouped specification with a shared filter.
-/

namespace Facet.Spec

/-- **What building does.** A specification whose fields resolve and whose conditions compile
is built exactly if on all of its levels nothing collides, and is refused as a duplicate
otherwise. Every level of it then has a matching level of nodes, and each of these is laid out
as its declarations say. In another order the specification is built alike. -/
theorem build_characterized {options : BuilderOptions} {spec : Spec}
    (resolves : spec.Resolves options) :
    ((∃ built, (spec.build options).outcome = .ok built) ↔
        AtEveryLevel (LevelSeparate options) spec.entries) ∧
      (¬ AtEveryLevel (LevelSeparate options) spec.entries →
        ∃ name, (spec.build options).outcome = .error (.duplicateAggregation name)) ∧
      (∀ built, (spec.build options).outcome = .ok built →
        (∀ level, HasLevel spec.entries level →
            ∃ nodes, Matching spec.entries built.nodes level nodes) ∧
          ∀ level nodes, Matching spec.entries built.nodes level nodes →
            ∃ placed, Entry.placements options level = .ok placed ∧
              nodes = arrange [] placed ∧ LaidOut placed nodes) ∧
      ∀ other : Spec, Entry.Rearranged spec.entries other.entries →
        ((∃ built, (spec.build options).outcome = .ok built) ↔
            ∃ built, (other.build options).outcome = .ok built) ∧
          ∀ built otherBuilt, (spec.build options).outcome = .ok built →
            (other.build options).outcome = .ok otherBuilt →
              Node.Alike built.nodes otherBuilt.nodes := by
  obtain ⟨placed, placing⟩ := Entry.placements_of_resolves resolves
  have builds : (∃ built, (spec.build options).outcome = .ok built) ↔
      AtEveryLevel (LevelSeparate options) spec.entries := by
    constructor
    · rintro ⟨built, succeeds⟩
      exact ((build_eq_ok_iff placing).mp succeeds).1
    · intro separate
      exact ⟨_, (build_eq_ok_iff placing).mpr ⟨separate, rfl⟩⟩
  refine ⟨builds, ?_, ?_, fun other rearranged => build_rearranged rearranged placing⟩
  · intro collides
    cases outcome : (spec.build options).outcome with
    | ok built => exact absurd (builds.mp ⟨built, outcome⟩) collides
    | error error =>
        obtain ⟨name, rfl⟩ := build_refused placing outcome
        exact ⟨name, rfl⟩
  · intro built succeeds
    obtain ⟨separate, rfl⟩ := (build_eq_ok_iff placing).mp succeeds
    refine ⟨fun level reached => exists_matching placing separate reached, ?_⟩
    intro level nodes matching
    obtain ⟨levelPlaced, levelPlacing, levelSeparate, rfl⟩ :=
      levelPlaced_of_matching (levelPlaced_of_separate placing separate) separate matching
    exact ⟨levelPlaced, levelPlacing, rfl,
      laidOut_arrange levelSeparate (placements_areProper levelPlacing)⟩

/-! ### A grouped specification -/

/-- The weight of all cars and that of new ones, and the heaviest new car. -/
def weights : List Entry :=
  [.metric (.measure .sum (.property "Weight") none),
    .metric (.measure .sum (.property "Weight") (some (.flag (.property "IsNew")))),
    .metric (.measure .max (.property "Weight") (some (.flag (.property "IsNew"))))]

/-- The weights by the type of car. -/
def weightByType : Spec :=
  (Spec.mk weights).groupBy (.field (.property "CarType"))

private theorem weightByType_resolves : weightByType.Resolves .standard := by
  have weight : (FieldExpr.property "Weight").Resolves := ⟨_, rfl⟩
  have carType : (FieldExpr.property "CarType").Resolves := ⟨_, rfl⟩
  have isNew : ∃ query, ((Predicate.flag (.property "IsNew")).compile .standard).outcome =
      .ok query := ⟨_, rfl⟩
  have declared : AtEveryLevel (fun level => ∀ entry ∈ level, entry.Resolves .standard)
      weights := by
    refine atEveryLevel_iff.mpr ⟨?_, by simp [weights]⟩
    refine List.forall_mem_cons.mpr ⟨⟨List.forall_mem_singleton.mpr weight, nofun⟩, ?_⟩
    refine List.forall_mem_cons.mpr ⟨⟨List.forall_mem_singleton.mpr weight, ?_⟩, ?_⟩
    · rintro _ ⟨⟩
      exact isNew
    · refine List.forall_mem_singleton.mpr ⟨List.forall_mem_singleton.mpr weight, ?_⟩
      rintro _ ⟨⟩
      exact isNew
  have grouped : ∀ entry ∈ weightByType.entries, entry.Resolves .standard :=
    List.forall_mem_singleton.mpr (List.forall_mem_singleton.mpr carType)
  exact atEveryLevel_iff.mpr ⟨grouped, by simpa [weightByType, groupBy] using declared⟩

/-- Nothing collides on its levels, since it is built. Below the type of car stand the weight of
all cars and the filter of the new ones, which holds both of their weights in order. -/
theorem weightByType_separate :
    let allWeights := Node.leaf "SumWeight" (.metric .sum "weight")
    let heaviest := Node.leaf "MaxWeight" (.metric .max "weight")
    let isNew := Query.flag "isNew"
    let placed : List Placement :=
      [.plain allWeights, .restricted ⟨"isNew", isNew, allWeights⟩,
        .restricted ⟨"isNew", isNew, heaviest⟩]
    let nodes := [allWeights, .mk "isNew" (.filter isNew) [allWeights, heaviest]]
    weightByType.Resolves .standard ∧
      AtEveryLevel (LevelSeparate .standard) weightByType.entries ∧
      ∃ built, (weightByType.build .standard).outcome = .ok built ∧
        Matching weightByType.entries built.nodes weights nodes ∧ LaidOut placed nodes := by
  intro allWeights heaviest isNew placed nodes
  have succeeds : (weightByType.build .standard).outcome = .ok _ := rfl
  have placing : Entry.placements .standard weights = .ok placed := rfl
  obtain ⟨accepted, _, levels, _⟩ := build_characterized weightByType_resolves
  obtain ⟨matched, described⟩ := levels _ succeeds
  have below : HasLevel weightByType.entries weights := .inner List.mem_cons_self (.whole _)
  obtain ⟨found, matching⟩ := matched weights below
  obtain ⟨foundPlaced, foundPlacing, arranged, laidOut⟩ := described weights found matching
  obtain rfl : placed = foundPlaced := Except.ok.inj (placing.symm.trans foundPlacing)
  obtain rfl : found = nodes := arranged
  exact ⟨weightByType_resolves, accepted.mp ⟨_, succeeds⟩, _, succeeds, matching, laidOut⟩

end Facet.Spec
