import Facet.Proofs.Aggregation.Chain
import Facet.Proofs.Field.Property

/-!
Names that the engine accepts.

The engine refuses brackets and the greater sign in the names of aggregations. Signatures have
these marks replaced, so filters are always accepted. All other names are made of a tag and the
capitalised words of a field, or are the field itself, and nothing on this way adds or removes a
mark: the name has those of the field.

Owns:
- the marks that the engine refuses, and the names without them;
- that signatures have no marks, and the name of a target those of its field;
- that the names of a request are accepted exactly if the fields that they are made of are.

Does not own: which names readers compute.
-/

namespace Facet

/-! ### Marks -/

/-- The characters that the engine refuses in the names of aggregations. -/
def refusedMarks : List Char :=
  ['[', ']', '>']

/-- The engine accepts the name. -/
def IsAccepted (name : String) : Prop :=
  ∀ mark ∈ refusedMarks, mark ∉ name.toList

instance : DecidablePred IsAccepted := fun name =>
  List.decidableBAll (fun mark => mark ∉ name.toList) refusedMarks

/-- What holds of every mark holds of these three. -/
theorem forall_marks {property : Char → Prop} :
    (∀ mark ∈ refusedMarks, property mark) ↔ property '[' ∧ property ']' ∧ property '>' := by
  simp [refusedMarks]

theorem isAccepted_append {first second : String} :
    IsAccepted (first ++ second) ↔ IsAccepted first ∧ IsAccepted second := by
  simp only [IsAccepted, String.toList_append, List.mem_append, not_or, forall_and]

/-- Only the marks among the characters count. -/
theorem isAccepted_congr {first second : String}
    (same : ∀ mark ∈ refusedMarks, (mark ∈ first.toList ↔ mark ∈ second.toList)) :
    IsAccepted first ↔ IsAccepted second :=
  forall₂_congr fun mark refused => not_congr (same mark refused)

/-! ### Signatures -/

/-- The characters that are replaced in signatures include all marks. -/
theorem isAccepted_sanitize (text : String) : IsAccepted (Predicate.sanitize text) := by
  have replaced : ∀ mark ∈ refusedMarks, Predicate.isRefused mark = true ∧ mark ≠ '_' := by
    rw [forall_marks]
    decide
  intro mark refused member
  rw [Predicate.sanitize, String.toList_ofList] at member
  obtain ⟨char, _, same⟩ := List.mem_map.mp member
  obtain ⟨isRefused, notLine⟩ := replaced mark refused
  split at same
  · exact notLine same.symm
  · next kept =>
      rw [same] at kept
      exact kept isRefused

private theorem Predicate.isAccepted_signature {predicate : Predicate} {signature : String}
    (signed : predicate.signature = .ok signature) : IsAccepted signature := by
  obtain ⟨spelling, _, made⟩ := Outcome.bind_eq_ok.mp signed
  cases made
  exact isAccepted_sanitize spelling

/-! ### Capitalised words -/

namespace Text

variable {mark : Char}

/-- No run of upper-case forms has a mark in it. -/
theorem upperRuns_avoid_marks : ∀ run ∈ upperRuns, ∀ mark ∈ refusedMarks,
    mark.toNat ≠ 0 ∧
      (run.target + (run.last - run.first) < mark.toNat ∨ mark.toNat < run.target) := by
  simp only [forall_marks]
  decide +kernel

private theorem upperExpansions_avoid_marks : ∀ expansion ∈ upperExpansions, ∀ mark ∈ refusedMarks,
    mark ∉ expansion.form.map Char.ofNat := by
  simp only [forall_marks]
  decide +kernel

private theorem upper_mark : ∀ mark ∈ refusedMarks, upper mark = [mark] := by
  rw [forall_marks]
  decide +kernel

/-- Among the upper-case forms a mark is that of itself alone. -/
theorem mem_upper_iff (refused : mark ∈ refusedMarks) {char : Char} :
    mark ∈ upper char ↔ mark = char := by
  constructor
  · intro member
    unfold upper caseForm at member
    cases single : upperRuns.findSome? (·.form? char.toNat) with
    | some code =>
        rw [single] at member
        have coded : mark = Char.ofNat code := List.mem_singleton.mp member
        obtain ⟨run, listed, formed⟩ := List.exists_of_findSome?_eq_some single
        obtain ⟨nonzero, outside⟩ := upperRuns_avoid_marks run listed mark refused
        rw [CaseRun.form?, Option.ite_none_right_eq_some, Option.some.injEq] at formed
        have value : mark.toNat = code ∨ mark.toNat = 0 := by
          rw [coded]
          exact toNat_ofNat code
        omega
    | none =>
        rw [single] at member
        cases expanded : upperExpansions.find? (·.source == char.toNat) with
        | some expansion =>
            rw [expanded] at member
            exact absurd member (upperExpansions_avoid_marks expansion
              (List.mem_of_find?_eq_some expanded) mark refused)
        | none =>
            rw [expanded] at member
            exact List.mem_singleton.mp member
  · rintro rfl
    rw [upper_mark mark refused]
    exact List.mem_singleton_self mark

theorem mem_upperFirst_iff (refused : mark ∈ refusedMarks) {name : List Char} :
    mark ∈ upperFirst name ↔ mark ∈ name := by
  cases name with
  | nil => exact Iff.rfl
  | cons first rest =>
      rw [upperFirst, mapFirst, List.mem_append, mem_upper_iff refused, List.mem_cons]

/-- Joining adds points and nothing else. -/
theorem Dotted.mem_join_iff (apart : mark ≠ '.') {segments : List (List Char)} :
    mark ∈ join segments ↔ ∃ segment ∈ segments, mark ∈ segment := by
  induction segments with
  | nil => simp [join]
  | cons segment others inductionHypothesis =>
      cases others with
      | nil => simp [join]
      | cons next more =>
          rw [join_cons segment (List.cons_ne_nil _ _), List.mem_append, List.mem_cons,
            inductionHypothesis]
          simp [apart]

end Text

/-- The capitalised words of a name have the marks of the name. -/
theorem mem_pascal_iff {mark : Char} (refused : mark ∈ refusedMarks) {field : String} :
    mark ∈ (pascal field).toList ↔ mark ∈ field.toList := by
  have apart : mark ≠ '.' := by
    rintro rfl
    exact absurd refused (by decide)
  rw [pascal, String.toList_ofList, List.mem_flatMap]
  simp only [Text.mem_upperFirst_iff refused]
  rw [← Text.Dotted.mem_join_iff apart, Text.Dotted.join_split]

theorem isAccepted_pascal_iff {field : String} : IsAccepted (pascal field) ↔ IsAccepted field :=
  isAccepted_congr fun _ refused => mem_pascal_iff refused

/-! ### Targets -/

private theorem MetricKind.isAccepted_tag (kind : MetricKind) : IsAccepted kind.tag := by
  cases kind with
  | measure measure => cases measure <;> decide
  | _ => decide

private theorem Direction.isAccepted_tag (direction : Direction) : IsAccepted direction.tag := by
  cases direction <;> decide

/-- The field that a target is named after, if it is named after one. -/
def Target.field? : Target → Option String
  | .metric _ field => some field
  | .topHits sort => sort.map Prod.fst
  | .terms field => some field
  | .histogram field => some field
  | .dateHistogram field => some field

/-- The name of a target is accepted exactly if its field is. -/
theorem Target.isAccepted_name_iff {target : Target} :
    IsAccepted target.name ↔ ∀ field, target.field? = some field → IsAccepted field := by
  have histogram : IsAccepted "Histogram" := by decide
  have dateHistogram : IsAccepted "DateHistogram" := by decide
  cases target with
  | topHits sort =>
      cases sort with
      | none => exact iff_of_true (MetricKind.isAccepted_tag .topHits) nofun
      | some sorting =>
          simp [name, field?, isAccepted_append, isAccepted_pascal_iff,
            MetricKind.isAccepted_tag, Direction.isAccepted_tag]
  | _ =>
      simp [name, field?, isAccepted_append, isAccepted_pascal_iff, MetricKind.isAccepted_tag,
        histogram, dateHistogram]

/-- A metric is named after one target. -/
theorem Declaration.Names.unique {declaration : Declaration} {target other : Target}
    (names : declaration.Names target) (otherNames : declaration.Names other) :
    target = other := by
  cases names with
  | topHits =>
      cases otherNames
      rfl
  | measure resolved =>
      cases otherNames with
      | measure otherResolved =>
          cases resolved.symm.trans otherResolved
          rfl
  | percentiles resolved =>
      cases otherNames with
      | percentiles otherResolved =>
          cases resolved.symm.trans otherResolved
          rfl
  | sortedTopHits resolved =>
      cases otherNames with
      | sortedTopHits otherResolved =>
          cases resolved.symm.trans otherResolved
          rfl

/-! ### Levels -/

/-- The target that an entry is named after. -/
def Entry.Names : Entry → Target → Prop
  | .metric declaration, target => declaration.Names target
  | .group key _, target => key.target = .ok target

/-- The entry is named after no field with a mark. -/
def Entry.IsAccepted (entry : Entry) : Prop :=
  ∀ target field, entry.Names target → target.field? = some field → Facet.IsAccepted field

private theorem Entry.isAccepted_of_name {entry : Entry} {target : Target}
    (names : entry.Names target) (accepted : Facet.IsAccepted target.name) : entry.IsAccepted := by
  intro other field otherNames named
  have same : other = target := by
    cases entry with
    | metric declaration => exact Declaration.Names.unique otherNames names
    | group key inner => exact Except.ok.inj (otherNames.symm.trans names)
  rw [same] at named
  exact Target.isAccepted_name_iff.mp accepted field named

private theorem Entry.IsAccepted.name {entry : Entry} {target : Target}
    (accepted : entry.IsAccepted) (names : entry.Names target) : Facet.IsAccepted target.name :=
  Target.isAccepted_name_iff.mpr fun field named => accepted target field names named

namespace Spec

variable {options : BuilderOptions}

/-- The nodes of a matching level are among those of the request. -/
theorem Matching.within {entries level : List Entry} {nodes levelNodes : List Node} {node : Node}
    (matching : Matching entries nodes level levelNodes)
    (within : Node.Within levelNodes node) : Node.Within nodes node := by
  induction matching with
  | whole => exact within
  | inner _ _ found _ _ belowHypothesis => exact .deeper found (belowHypothesis within)

/-- Every entry of a level has a node there or below a filter there, under the name of its
target. -/
theorem exists_within_of_entry {level : List Entry} {nodes : List Node} {entry : Entry}
    (placed : LevelPlaced options level nodes) (member : entry ∈ level) :
    ∃ node target, Node.Within nodes node ∧ entry.Names target ∧ node.name = target.name := by
  cases entry with
  | metric declaration =>
      obtain ⟨node, made, sits⟩ := declaration_sitsOn placed member
      obtain ⟨target, names, named⟩ := Declaration.names_of_node made
      refine ⟨node, target, ?_, names, named⟩
      cases restriction : declaration.condition with
      | none =>
          rw [restriction] at sits
          exact .here sits
      | some condition =>
          rw [restriction] at sits
          obtain ⟨_, _, _, _, _, _, filter, _, below⟩ := sits
          exact .deeper filter (.here below)
  | group key inner =>
      obtain ⟨node, inside, keyed, _, found⟩ := node_of_group placed member
      obtain ⟨target, names, named⟩ := GroupKey.target_of_node keyed
      exact ⟨_, target, .here found, names, named⟩

/-- A node of a request has a signature as its name if it is a filter, and otherwise the name of a
target that an entry is named after. -/
theorem name_of_within {level : List Entry} {nodes : List Node} {node : Node}
    (placed : LevelPlaced options level nodes)
    (separate : AtEveryLevel (LevelSeparate options) level) (within : Node.Within nodes node) :
    (∃ condition : Predicate, condition.signature = .ok node.name) ∨
      (∀ query, node.operation ≠ .filter query) ∧
        ∃ own entry target, HasLevel level own ∧ entry ∈ own ∧ entry.Names target ∧
          node.name = target.name := by
  -- The name of a metric is the same on its level and below a filter.
  have ofMetric {own : List Entry} {declaration : Declaration} (reached : HasLevel level own)
      (declared : .metric declaration ∈ own) (made : declaration.node options = .ok node) :
      (∀ query, node.operation ≠ .filter query) ∧
        ∃ own entry target, HasLevel level own ∧ entry ∈ own ∧ Entry.Names entry target ∧
          node.name = target.name := by
    obtain ⟨target, names, named⟩ := Declaration.names_of_node made
    exact ⟨Declaration.node_ne_filter made, own, _, target, reached, declared, names, named⟩
  obtain ⟨own, reached, ⟨_, declared, made⟩ | ⟨_, ownPlaced, _, member⟩⟩ :=
    level_of_within placed separate within
  · exact .inr (ofMetric reached declared made)
  · cases origin_of_level ownPlaced member with
    | metric declared _ made => exact .inr (ofMetric reached declared made)
    | filter _ _ signed _ _ _ => exact .inl ⟨_, signed⟩
    | group declared keyed _ =>
        obtain ⟨target, names, named⟩ := GroupKey.target_of_node keyed
        have unfiltered := GroupKey.node_ne_filter keyed
        exact .inr ⟨unfiltered, own, _, target, reached, declared, names, named⟩

/-- **Which names the engine accepts.** In a built request the names of filters have no mark that
the engine refuses. All names are accepted exactly if no metric, no sort order and no group, on
whatever level and under whatever condition, is named after a field with such a mark. -/
theorem names_accepted_iff {spec : Spec} {built : Aggregations}
    (succeeds : (spec.build options).outcome = .ok built) :
    (∀ node query, Node.Within built.nodes node → node.operation = .filter query →
        IsAccepted node.name) ∧
      ((∀ node, Node.Within built.nodes node → IsAccepted node.name) ↔
        AtEveryLevel (fun level => ∀ entry ∈ level, entry.IsAccepted) spec.entries) := by
  obtain ⟨_, _, separate, _⟩ := placements_of_build succeeds
  have whole := levelPlaced_of_build succeeds (.whole _ _)
  refine ⟨?_, ?_, ?_⟩
  · intro node query within filters
    rcases name_of_within whole separate within with ⟨_, signed⟩ | ⟨unfiltered, _⟩
    · exact Predicate.isAccepted_signature signed
    · exact absurd filters (unfiltered query)
  · intro accepted level reached entry member
    obtain ⟨nodes, matching, levelPlaced⟩ := exists_matching_of_build succeeds reached
    obtain ⟨node, target, within, names, named⟩ := exists_within_of_entry levelPlaced member
    have nameAccepted := accepted node (matching.within within)
    rw [named] at nameAccepted
    exact Entry.isAccepted_of_name names nameAccepted
  · intro accepted node within
    rcases name_of_within whole separate within with
      ⟨_, signed⟩ | ⟨_, own, entry, target, reached, listed, names, named⟩
    · exact Predicate.isAccepted_signature signed
    · rw [named]
      exact (accepted own reached entry listed).name names

/-- The weights by the type of car are built with names that the engine accepts. -/
theorem weightByType_accepted :
    ∃ built, (weightByType.build .standard).outcome = .ok built ∧
      ∀ node, Node.Within built.nodes node → IsAccepted node.name := by
  have succeeds : (weightByType.build .standard).outcome = .ok _ := rfl
  refine ⟨_, succeeds, (names_accepted_iff succeeds).2.mpr ?_⟩
  have weight : (FieldExpr.property "Weight").wire = .ok "weight" := rfl
  have weighed : AtEveryLevel (fun level => ∀ entry ∈ level, entry.IsAccepted) weights := by
    refine atEveryLevel_iff.mpr ⟨?_, by simp [weights]⟩
    simp only [weights, List.forall_mem_cons]
    refine ⟨?_, ?_, ?_, List.forall_mem_nil _⟩
    all_goals exact Entry.isAccepted_of_name (.measure weight) (by decide)
  refine atEveryLevel_iff.mpr ⟨?_, by simpa [weightByType, groupBy] using weighed⟩
  have grouped : Entry.Names (.group (.field (.property "CarType")) weights) (.terms "carType") :=
    rfl
  exact List.forall_mem_singleton.mpr (Entry.isAccepted_of_name grouped (by decide))

/-- A sum over a field that is named directly, with an index in brackets. -/
def sumOfFirst : Spec :=
  empty.declare (.measure .sum (.ofWire "a[0]") none)

/-- The brackets of a field stay in the name of its sum, which the engine refuses. -/
theorem field_with_brackets_is_refused :
    (sumOfFirst.build .standard).outcome =
        .ok ⟨[.leaf "SumA[0]" (.metric .sum "a[0]")]⟩ ∧
      ¬IsAccepted "SumA[0]" :=
  ⟨rfl, by decide⟩

end Spec

end Facet
