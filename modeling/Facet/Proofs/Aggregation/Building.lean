import Facet.Proofs.Aggregation.Placement

/-!
Building requests, as a property of specifications.

Building adds the entries of a level one after the other and looks at what is there already.
It succeeds exactly if the placements of every level are separate, whatever their order, and
then yields the level that the placements make.

Owns:
- the outcome of adding one entry, in terms of its placement;
- the outcome of adding all entries of a level;
- the outcome of building a specification without faults of its own.
-/

namespace Facet

namespace Spec

variable {options : BuilderOptions}

/-! ### One entry -/

/-- A declaration is added by inserting its placement. -/
theorem addEntry_metric_outcome (level : List Node) (declaration : Declaration) :
    (addEntry options level (.metric declaration)).outcome =
      declaration.placement options >>= Placement.insert level := by
  show (addDeclaration options level declaration).outcome = _
  rw [addDeclaration, Traced.outcome_bind, Declaration.placement, Traced.outcome_liftM]
  cases declaration.node options with
  | error _ => rfl
  | ok node =>
      simp only [Outcome.ok_bind]
      cases declaration.condition with
      | none => rfl
      | some condition =>
          dsimp only
          rw [Traced.outcome_bind, Traced.outcome_liftM]
          cases condition.signature with
          | error _ => rfl
          | ok signature =>
              simp only [Outcome.ok_bind]
              rw [Traced.outcome_bind]
              cases (condition.compile options.compiler).outcome <;> rfl

/-- A group is added by inserting its node, once its own level has been built. -/
theorem addEntry_group_outcome (level : List Node) (key : GroupKey) (inner : List Entry) :
    (addEntry options level (.group key inner)).outcome =
      (do
        let node ← key.node options
        let children ← (addEntries options [] inner).outcome
        (Placement.plain (node.withChildren children)).insert level) := by
  rw [addEntry, Traced.outcome_bind, Traced.outcome_liftM]
  cases key.node options with
  | error _ => rfl
  | ok node =>
      simp only [Outcome.ok_bind, Traced.outcome_bind]
      rfl

/-- A group whose own level has been built is added by inserting its node. -/
theorem addEntry_group_of_inner {key : GroupKey} {inner : List Entry} {node : Node}
    {children : List Node} (keyed : key.node options = .ok node)
    (grouped : (addEntries options [] inner).outcome = .ok children) (level : List Node) :
    (addEntry options level (.group key inner)).outcome =
      (Placement.plain (node.withChildren children)).insert level := by
  rw [addEntry_group_outcome, keyed, Outcome.ok_bind, grouped, Outcome.ok_bind]

theorem addEntries_cons_outcome (level : List Node) (entry : Entry) (rest : List Entry) :
    (addEntries options level (entry :: rest)).outcome =
      (do
        let extended ← (addEntry options level entry).outcome
        (addEntries options extended rest).outcome) := by
  rw [addEntries, Traced.outcome_bind]

/-! ### One entry after others -/

/-- A separate placement takes the level of those before to the level with one more. -/
theorem addEntries_cons_of_separate {entry : Entry} {first : Placement}
    {before : List Placement}
    (inserting : ∀ level, (addEntry options level entry).outcome = first.insert level)
    (separate : Separate (before ++ [first])) (rest : List Entry) :
    (addEntries options (arrange [] before) (entry :: rest)).outcome =
      (addEntries options (arrange [] (before ++ [first])) rest).outcome := by
  have apart := (separate_concat.mp separate).2
  rw [addEntries_cons_outcome, inserting, Placement.insert_of_apart apart, Outcome.ok_bind]

/-- A placement that is added is separate from those before. -/
theorem separate_of_addEntries_cons {entry : Entry} {rest : List Entry} {first : Placement}
    {before : List Placement} {built : List Node}
    (inserting : ∀ level, (addEntry options level entry).outcome = first.insert level)
    (separate : Separate before) (proper : ∀ earlier ∈ before, earlier.IsProper)
    (succeeds : (addEntries options (arrange [] before) (entry :: rest)).outcome = .ok built) :
    Separate (before ++ [first]) ∧
      (addEntries options (arrange [] (before ++ [first])) rest).outcome = .ok built := by
  have added := succeeds
  rw [addEntries_cons_outcome, inserting, Outcome.bind_eq_ok] at added
  obtain ⟨extended, inserted, _⟩ := added
  have apart := Placement.apart_of_insert separate proper inserted
  have joined := separate_concat.mpr ⟨separate, apart⟩
  exact ⟨joined, (addEntries_cons_of_separate inserting joined rest).symm.trans succeeds⟩

theorem isProper_concat {before : List Placement} {entry : Entry} {first : Placement}
    (proper : ∀ earlier ∈ before, earlier.IsProper)
    (placing : entry.placement options = .ok first) :
    ∀ earlier ∈ before ++ [first], earlier.IsProper := by
  rw [List.forall_mem_append, List.forall_mem_singleton]
  exact ⟨proper, Entry.placement_isProper placing⟩

/-! ### All entries of a level -/

/-- Separate placements are added one after the other, each to the level of those before. -/
theorem addEntries_of_separate {entries : List Entry} {before placed : List Placement}
    (placing : Entry.placements options entries = .ok placed)
    (within : AtInnerLevels (LevelSeparate options) entries)
    (separate : Separate (before ++ placed)) :
    (addEntries options (arrange [] before) entries).outcome =
      .ok (arrange [] (before ++ placed)) := by
  induction entries using Entry.induction generalizing before placed with
  | nil =>
      cases placing
      rw [List.append_nil]
      rfl
  | metric declaration rest restHypothesis =>
      obtain ⟨first, others, firstPlaced, othersPlaced, rfl⟩ :=
        Entry.placements_cons_eq_ok.mp placing
      rw [atInnerLevels_metric_cons] at within
      rw [List.append_cons] at separate ⊢
      have declared : declaration.placement options = .ok first := firstPlaced
      have inserting : ∀ level,
          (addEntry options level (.metric declaration)).outcome = first.insert level := by
        intro level
        rw [addEntry_metric_outcome, declared, Outcome.ok_bind]
      rw [addEntries_cons_of_separate inserting separate.of_append_left]
      exact restHypothesis othersPlaced within separate
  | group key inner rest innerHypothesis restHypothesis =>
      obtain ⟨first, others, firstPlaced, othersPlaced, rfl⟩ :=
        Entry.placements_cons_eq_ok.mp placing
      obtain ⟨node, inside, keyed, grouped, rfl⟩ := Entry.placement_group_eq_ok.mp firstPlaced
      rw [atInnerLevels_group_cons, atEveryLevel_iff] at within
      obtain ⟨⟨⟨also, groupedAlso, separateInside⟩, withinInner⟩, withinRest⟩ := within
      rw [grouped] at groupedAlso
      cases groupedAlso
      rw [List.append_cons] at separate ⊢
      have built : (addEntries options (arrange [] []) inner).outcome =
          .ok (arrange [] ([] ++ inside)) := innerHypothesis grouped withinInner separateInside
      have inserting := addEntry_group_of_inner keyed built
      rw [addEntries_cons_of_separate inserting separate.of_append_left]
      exact restHypothesis othersPlaced withinRest separate

/-- Entries are added only if all placements are separate, on their level and below. -/
theorem separate_of_addEntries {entries : List Entry} {before placed : List Placement}
    {built : List Node} (placing : Entry.placements options entries = .ok placed)
    (separate : Separate before) (proper : ∀ earlier ∈ before, earlier.IsProper)
    (succeeds : (addEntries options (arrange [] before) entries).outcome = .ok built) :
    AtInnerLevels (LevelSeparate options) entries ∧ Separate (before ++ placed) := by
  induction entries using Entry.induction generalizing before placed built with
  | nil =>
      cases placing
      rw [List.append_nil]
      exact ⟨atInnerLevels_nil _, separate⟩
  | metric declaration rest restHypothesis =>
      obtain ⟨first, others, firstPlaced, othersPlaced, rfl⟩ :=
        Entry.placements_cons_eq_ok.mp placing
      have declared : declaration.placement options = .ok first := firstPlaced
      have inserting : ∀ level,
          (addEntry options level (.metric declaration)).outcome = first.insert level := by
        intro level
        rw [addEntry_metric_outcome, declared, Outcome.ok_bind]
      obtain ⟨joined, restSucceeds⟩ :=
        separate_of_addEntries_cons inserting separate proper succeeds
      rw [atInnerLevels_metric_cons, List.append_cons]
      exact restHypothesis othersPlaced joined (isProper_concat proper firstPlaced) restSucceeds
  | group key inner rest innerHypothesis restHypothesis =>
      obtain ⟨first, others, firstPlaced, othersPlaced, rfl⟩ :=
        Entry.placements_cons_eq_ok.mp placing
      obtain ⟨node, inside, keyed, grouped, rfl⟩ := Entry.placement_group_eq_ok.mp firstPlaced
      have added := succeeds
      simp only [addEntries_cons_outcome, addEntry_group_outcome, keyed, Outcome.ok_bind,
        Outcome.bind_eq_ok] at added
      obtain ⟨_, ⟨children, innerSucceeds, _⟩, _⟩ := added
      have innerAdded : (addEntries options (arrange [] []) inner).outcome = .ok children :=
        innerSucceeds
      obtain ⟨withinInner, separateInside⟩ :=
        innerHypothesis grouped separate_nil nofun innerAdded
      have built : (addEntries options (arrange [] []) inner).outcome =
          .ok (arrange [] ([] ++ inside)) :=
        addEntries_of_separate grouped withinInner separateInside
      have inserting := addEntry_group_of_inner keyed built
      obtain ⟨joined, restSucceeds⟩ :=
        separate_of_addEntries_cons inserting separate proper succeeds
      obtain ⟨withinRest, separateRest⟩ :=
        restHypothesis othersPlaced joined (isProper_concat proper firstPlaced) restSucceeds
      rw [atInnerLevels_group_cons, atEveryLevel_iff, List.append_cons]
      exact ⟨⟨⟨⟨inside, grouped, separateInside⟩, withinInner⟩, withinRest⟩, separateRest⟩

/-- Entries that have placements are refused as duplicates only. -/
theorem addEntries_refused {entries : List Entry} {level : List Node}
    {placed : List Placement} {error : Error}
    (placing : Entry.placements options entries = .ok placed)
    (refused : (addEntries options level entries).outcome = .error error) :
    ∃ name, error = .duplicateAggregation name := by
  induction entries using Entry.induction generalizing level placed error with
  | nil => cases refused
  | metric declaration rest restHypothesis =>
      obtain ⟨first, others, firstPlaced, othersPlaced, rfl⟩ :=
        Entry.placements_cons_eq_ok.mp placing
      have declared : declaration.placement options = .ok first := firstPlaced
      rw [addEntries_cons_outcome, addEntry_metric_outcome, declared,
        Outcome.ok_bind] at refused
      rcases Outcome.bind_eq_error.mp refused with inserting | ⟨extended, _, restRefused⟩
      · exact Placement.insert_refused inserting
      · exact restHypothesis othersPlaced restRefused
  | group key inner rest innerHypothesis restHypothesis =>
      obtain ⟨first, others, firstPlaced, othersPlaced, rfl⟩ :=
        Entry.placements_cons_eq_ok.mp placing
      obtain ⟨node, inside, keyed, grouped, rfl⟩ := Entry.placement_group_eq_ok.mp firstPlaced
      rw [addEntries_cons_outcome, addEntry_group_outcome, keyed, Outcome.ok_bind] at refused
      rcases Outcome.bind_eq_error.mp refused with inserting | ⟨extended, _, restRefused⟩
      · rcases Outcome.bind_eq_error.mp inserting with innerRefused | ⟨children, _, inserted⟩
        · exact innerHypothesis grouped innerRefused
        · exact Placement.insert_refused inserted
      · exact restHypothesis othersPlaced restRefused

/-! ### Building -/

theorem build_outcome (spec : Spec) :
    (spec.build options).outcome =
      Aggregations.mk <$> (addEntries options [] spec.entries).outcome := by
  rw [build, Traced.outcome_conclude, Traced.outcome_map]

/-- A specification with placements is built exactly if they are separate on all levels. Then
each level is the one that its placements make. -/
theorem build_eq_ok_iff {spec : Spec} {placed : List Placement} {built : Aggregations}
    (placing : Entry.placements options spec.entries = .ok placed) :
    (spec.build options).outcome = .ok built ↔
      AtEveryLevel (LevelSeparate options) spec.entries ∧ built = ⟨arrange [] placed⟩ := by
  rw [build_outcome, Outcome.map_eq_ok, atEveryLevel_iff]
  constructor
  · rintro ⟨nodes, succeeds, rfl⟩
    obtain ⟨within, separate⟩ := separate_of_addEntries placing separate_nil nofun succeeds
    have same : (addEntries options (arrange [] []) spec.entries).outcome =
        .ok (arrange [] ([] ++ placed)) := addEntries_of_separate placing within separate
    have nodesSame : nodes = arrange [] placed := Except.ok.inj (succeeds.symm.trans same)
    rw [nodesSame]
    exact ⟨⟨⟨placed, placing, separate⟩, within⟩, rfl⟩
  · rintro ⟨⟨⟨also, placingAlso, separate⟩, within⟩, rfl⟩
    rw [placing] at placingAlso
    cases placingAlso
    have succeeds : (addEntries options (arrange [] []) spec.entries).outcome =
        .ok (arrange [] ([] ++ placed)) := addEntries_of_separate placing within separate
    exact ⟨arrange [] placed, succeeds, rfl⟩

/-- A specification with placements that are not separate is refused as a duplicate. -/
theorem build_refused {spec : Spec} {placed : List Placement} {error : Error}
    (placing : Entry.placements options spec.entries = .ok placed)
    (refused : (spec.build options).outcome = .error error) :
    ∃ name, error = .duplicateAggregation name := by
  rw [build_outcome, Outcome.map_eq_error] at refused
  exact addEntries_refused placing refused

end Spec

end Facet
