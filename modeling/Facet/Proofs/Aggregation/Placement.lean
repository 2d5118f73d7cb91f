import Facet.Proofs.Aggregation.Insertion
import Facet.Proofs.Field.Resolution
import Facet.Proofs.Predicate.Signature

/-!
What specifications place on their levels.

Owns:
- induction over the entries of a specification with everything grouped below them;
- the levels of a specification, and properties that hold of all of them;
- specifications whose fields resolve and whose conditions compile;
- the placements of a level, and that every level of such a specification has them.

Does not own: the order in which the levels are built.
-/

namespace Facet

/-! ### Entries and levels -/

/-- Induction over the entries of a level, with the entries grouped below them. -/
theorem Entry.induction {motive : List Entry → Prop} (nil : motive [])
    (metric : ∀ declaration rest, motive rest → motive (.metric declaration :: rest))
    (group : ∀ key inner rest, motive inner → motive rest → motive (.group key inner :: rest)) :
    ∀ entries, motive entries
  | [] => nil
  | .metric declaration :: rest =>
      metric declaration rest (Entry.induction nil metric group rest)
  | .group key inner :: rest =>
      group key inner rest (Entry.induction nil metric group inner)
        (Entry.induction nil metric group rest)
termination_by entries => sizeOf entries

namespace Spec

/-- The levels below some entries: the entries themselves, and the levels of every group. -/
inductive HasLevel : List Entry → List Entry → Prop where
  | whole (entries : List Entry) : HasLevel entries entries
  | inner {entries inner level : List Entry} {key : GroupKey}
      (member : .group key inner ∈ entries) (below : HasLevel inner level) :
      HasLevel entries level

/-- A property of every level below some entries. -/
def AtEveryLevel (property : List Entry → Prop) (entries : List Entry) : Prop :=
  ∀ level, HasLevel entries level → property level

/-- A property of every level of the groups among some entries. -/
def AtInnerLevels (property : List Entry → Prop) (entries : List Entry) : Prop :=
  ∀ key inner, .group key inner ∈ entries → AtEveryLevel property inner

theorem atEveryLevel_iff {property : List Entry → Prop} {entries : List Entry} :
    AtEveryLevel property entries ↔ property entries ∧ AtInnerLevels property entries := by
  constructor
  · intro every
    refine ⟨every entries (.whole entries), ?_⟩
    exact fun key inner member level below => every level (.inner member below)
  · rintro ⟨here, within⟩ level reached
    cases reached with
    | whole => exact here
    | inner member below => exact within _ _ member level below

@[simp] theorem atInnerLevels_nil (property : List Entry → Prop) : AtInnerLevels property [] :=
  fun _ _ member => absurd member List.not_mem_nil

@[simp] theorem atInnerLevels_metric_cons {property : List Entry → Prop} {declaration : Declaration}
    {rest : List Entry} :
    AtInnerLevels property (.metric declaration :: rest) ↔ AtInnerLevels property rest := by
  constructor
  · intro within key inner member
    exact within key inner (List.mem_cons_of_mem _ member)
  · intro within key inner member
    rcases List.mem_cons.mp member with same | later
    · cases same
    · exact within key inner later

@[simp] theorem atInnerLevels_group_cons {property : List Entry → Prop} {key : GroupKey}
    {inner rest : List Entry} :
    AtInnerLevels property (.group key inner :: rest) ↔
      AtEveryLevel property inner ∧ AtInnerLevels property rest := by
  constructor
  · intro within
    refine ⟨within key inner List.mem_cons_self, ?_⟩
    exact fun other grouped member => within other grouped (List.mem_cons_of_mem _ member)
  · rintro ⟨here, within⟩ other grouped member
    rcases List.mem_cons.mp member with same | later
    · cases same
      exact here
    · exact within other grouped later

end Spec

/-! ### Specifications without faults of their own -/

/-- The fields that a declaration names outside of its condition. -/
def Declaration.fields : Declaration → List FieldExpr
  | .measure _ field _ => [field]
  | .percentiles field _ _ => [field]
  | .topHits _ sort fields => fields ++ (sort.map Prod.fst).toList

def GroupKey.fields : GroupKey → List FieldExpr
  | .field source => [source]
  | .name _ => []
  | .histogram source _ => [source]
  | .dateHistogram source _ => [source]

/-- The fields of an entry resolve, and its condition compiles. -/
def Entry.Resolves (options : BuilderOptions) : Entry → Prop
  | .metric declaration =>
      (∀ field ∈ declaration.fields, field.Resolves) ∧
        ∀ condition, declaration.condition = some condition →
          ∃ query, (condition.compile options.compiler).outcome = .ok query
  | .group key _ => ∀ field ∈ key.fields, field.Resolves

/-- The fields of a specification resolve, and its conditions compile. -/
def Spec.Resolves (options : BuilderOptions) (spec : Spec) : Prop :=
  Spec.AtEveryLevel (fun level => ∀ entry ∈ level, entry.Resolves options) spec.entries

/-! ### Placements -/

/-- What a declaration places on its level. -/
def Declaration.placement (options : BuilderOptions) (declaration : Declaration) :
    Except Error Placement := do
  let node ← declaration.node options
  match declaration.condition with
  | none => return .plain node
  | some condition => do
      let signature ← condition.signature
      let query ← (condition.compile options.compiler).outcome
      return .restricted ⟨signature, query, node⟩

/-- A declaration without condition places its node. -/
theorem Declaration.placement_eq_plain_iff {options : BuilderOptions}
    {declaration : Declaration} {node : Node} :
    declaration.placement options = .ok (.plain node) ↔
      declaration.node options = .ok node ∧ declaration.condition = none := by
  simp only [placement, Outcome.bind_eq_ok]
  cases restriction : declaration.condition with
  | none =>
      simp only [Outcome.pure_eq_ok]
      constructor
      · rintro ⟨_, made, ⟨⟩⟩
        exact ⟨made, trivial⟩
      · rintro ⟨made, _⟩
        exact ⟨node, made, rfl⟩
  | some condition =>
      simp only [Outcome.bind_eq_ok, Outcome.pure_eq_ok]
      constructor
      · rintro ⟨_, _, _, _, _, _, ⟨⟩⟩
      · rintro ⟨_, ⟨⟩⟩

/-- A conditional declaration places its node below the signature of its condition. -/
theorem Declaration.placement_eq_restricted_iff {options : BuilderOptions}
    {declaration : Declaration} {metric : Restricted} :
    declaration.placement options = .ok (.restricted metric) ↔
      declaration.node options = .ok metric.node ∧
        ∃ condition, declaration.condition = some condition ∧
          condition.signature = .ok metric.signature ∧
          (condition.compile options.compiler).outcome = .ok metric.query := by
  simp only [placement, Outcome.bind_eq_ok]
  cases restriction : declaration.condition with
  | none =>
      simp only [Outcome.pure_eq_ok]
      constructor
      · rintro ⟨_, _, ⟨⟩⟩
      · rintro ⟨_, _, ⟨⟩, _⟩
  | some condition =>
      simp only [Outcome.bind_eq_ok, Outcome.pure_eq_ok]
      constructor
      · rintro ⟨_, made, _, signed, _, compiled, ⟨⟩⟩
        exact ⟨made, condition, rfl, signed, compiled⟩
      · rintro ⟨made, _, ⟨⟩, signed, compiled⟩
        exact ⟨_, made, _, signed, _, compiled, rfl⟩

namespace Entry

mutual

/-- What an entry places on its level. A group holds the level of what it groups. -/
def placement (options : BuilderOptions) : Entry → Except Error Placement
  | .metric declaration => declaration.placement options
  | .group key inner => do
      let node ← key.node options
      let inside ← placements options inner
      return .plain (node.withChildren (arrange [] inside))

/-- What the entries of a level place on it, in order. -/
def placements (options : BuilderOptions) : List Entry → Except Error (List Placement)
  | [] => .ok []
  | entry :: rest => do
      let first ← placement options entry
      let others ← placements options rest
      return first :: others

end

theorem placements_cons_eq_ok {options : BuilderOptions} {entry : Entry} {rest : List Entry}
    {placed : List Placement} :
    placements options (entry :: rest) = .ok placed ↔
      ∃ first others, entry.placement options = .ok first ∧
        placements options rest = .ok others ∧ placed = first :: others := by
  simp only [placements, Outcome.bind_eq_ok, Outcome.pure_eq_ok]
  constructor
  · rintro ⟨first, firstPlaced, others, othersPlaced, rfl⟩
    exact ⟨first, others, firstPlaced, othersPlaced, rfl⟩
  · rintro ⟨first, others, firstPlaced, othersPlaced, rfl⟩
    exact ⟨first, firstPlaced, others, othersPlaced, rfl⟩

theorem placement_group_eq_ok {options : BuilderOptions} {key : GroupKey} {inner : List Entry}
    {placed : Placement} :
    (Entry.group key inner).placement options = .ok placed ↔
      ∃ node inside, key.node options = .ok node ∧ placements options inner = .ok inside ∧
        placed = .plain (node.withChildren (arrange [] inside)) := by
  simp only [placement, Outcome.bind_eq_ok, Outcome.pure_eq_ok]
  constructor
  · rintro ⟨node, keyed, inside, grouped, rfl⟩
    exact ⟨node, inside, keyed, grouped, rfl⟩
  · rintro ⟨node, inside, keyed, grouped, rfl⟩
    exact ⟨node, keyed, inside, grouped, rfl⟩

end Entry

/-- The placements of a level are separate. -/
def Spec.LevelSeparate (options : BuilderOptions) (level : List Entry) : Prop :=
  ∃ placed, Entry.placements options level = .ok placed ∧ Separate placed

/-! ### Placements exist -/

private theorem FieldExpr.mapM_wire {fields : List FieldExpr}
    (resolve : ∀ field ∈ fields, field.Resolves) :
    ∃ wires, fields.mapM FieldExpr.wire = .ok wires := by
  induction fields with
  | nil => exact ⟨[], rfl⟩
  | cons field rest inductionHypothesis =>
      rw [List.forall_mem_cons] at resolve
      obtain ⟨wire, resolved⟩ := resolve.1.wire
      obtain ⟨wires, others⟩ := inductionHypothesis resolve.2
      refine ⟨wire :: wires, ?_⟩
      rw [List.mapM_cons, resolved, Outcome.ok_bind, others]
      rfl

private theorem Declaration.sortWire_of_resolves {sort : Option (FieldExpr × Direction)}
    (resolve : ∀ field ∈ (sort.map Prod.fst).toList, field.Resolves) :
    ∃ order, Declaration.sortWire sort = .ok order := by
  cases sort with
  | none => exact ⟨none, rfl⟩
  | some sorting =>
      obtain ⟨field, direction⟩ := sorting
      obtain ⟨wire, resolved⟩ := (resolve field List.mem_cons_self).wire
      refine ⟨some (wire, direction), ?_⟩
      rw [Declaration.sortWire, resolved]
      rfl

/-- A declaration whose fields resolve has a node. -/
theorem Declaration.node_of_resolves (options : BuilderOptions) {declaration : Declaration}
    (resolve : ∀ field ∈ declaration.fields, field.Resolves) :
    ∃ node, declaration.node options = .ok node := by
  cases declaration with
  | measure kind source condition =>
      obtain ⟨wire, resolved⟩ := (resolve source List.mem_cons_self).wire
      exact ⟨_, by rw [node, resolved]; rfl⟩
  | percentiles source percents condition =>
      obtain ⟨wire, resolved⟩ := (resolve source List.mem_cons_self).wire
      exact ⟨_, by rw [node, resolved]; rfl⟩
  | topHits size sort fields =>
      obtain ⟨listed, sorted⟩ := List.forall_mem_append.mp resolve
      obtain ⟨includes, projected⟩ := FieldExpr.mapM_wire listed
      obtain ⟨order, ordered⟩ := sortWire_of_resolves sorted
      exact ⟨_, by rw [node, projected, Outcome.ok_bind, ordered]; rfl⟩

private theorem GroupKey.node_of_resolves (options : BuilderOptions) {key : GroupKey}
    (resolve : ∀ field ∈ key.fields, field.Resolves) :
    ∃ node, key.node options = .ok node := by
  cases key with
  | name wire => exact ⟨_, rfl⟩
  | _ source =>
      obtain ⟨wire, resolved⟩ := (resolve source List.mem_cons_self).wire
      exact ⟨_, by rw [node, resolved]; rfl⟩

private theorem Declaration.placement_of_resolves {options : BuilderOptions}
    {declaration : Declaration} (resolves : (Entry.metric declaration).Resolves options) :
    ∃ placed, declaration.placement options = .ok placed := by
  obtain ⟨fields, conditions⟩ := resolves
  obtain ⟨node, made⟩ := node_of_resolves options fields
  cases restriction : declaration.condition with
  | none => exact ⟨.plain node, placement_eq_plain_iff.mpr ⟨made, restriction⟩⟩
  | some condition =>
      obtain ⟨query, compiled⟩ := conditions condition restriction
      obtain ⟨signature, signed⟩ := Predicate.signature_of_compile compiled
      exact ⟨.restricted ⟨signature, query, node⟩, placement_eq_restricted_iff.mpr
        ⟨made, condition, restriction, signed, compiled⟩⟩

/-- Every level of a specification without faults of its own has placements. -/
theorem Entry.placements_of_resolves {options : BuilderOptions} {entries : List Entry}
    (resolve : Spec.AtEveryLevel (fun level => ∀ entry ∈ level, entry.Resolves options) entries) :
    ∃ placed, Entry.placements options entries = .ok placed := by
  rw [Spec.atEveryLevel_iff] at resolve
  obtain ⟨here, within⟩ := resolve
  induction entries using Entry.induction with
  | nil => exact ⟨[], rfl⟩
  | metric declaration rest restHypothesis =>
      rw [List.forall_mem_cons] at here
      rw [Spec.atInnerLevels_metric_cons] at within
      obtain ⟨first, firstPlaced⟩ := Declaration.placement_of_resolves here.1
      obtain ⟨others, othersPlaced⟩ := restHypothesis here.2 within
      exact ⟨first :: others, placements_cons_eq_ok.mpr ⟨_, _, firstPlaced, othersPlaced, rfl⟩⟩
  | group key inner rest innerHypothesis restHypothesis =>
      rw [List.forall_mem_cons] at here
      rw [Spec.atInnerLevels_group_cons, Spec.atEveryLevel_iff] at within
      obtain ⟨node, keyed⟩ := GroupKey.node_of_resolves options here.1
      obtain ⟨inside, grouped⟩ := innerHypothesis within.1.1 within.1.2
      obtain ⟨others, othersPlaced⟩ := restHypothesis here.2 within.2
      have first := placement_group_eq_ok.mpr ⟨node, inside, keyed, grouped, rfl⟩
      exact ⟨_, placements_cons_eq_ok.mpr ⟨_, _, first, othersPlaced, rfl⟩⟩

/-! ### Placements are proper -/

private theorem Measure.operation_ne_filter (options : BuilderOptions) (wire : String)
    (kind : Measure) (query : Query) : kind.operation options wire ≠ .filter query := by
  cases kind <;> exact Operation.noConfusion

/-- The node of a declaration is not a filter. -/
theorem Declaration.node_ne_filter {options : BuilderOptions} {declaration : Declaration}
    {node : Node} (made : declaration.node options = .ok node) (query : Query) :
    node.operation ≠ .filter query := by
  cases declaration with
  | measure kind source condition =>
      simp only [Declaration.node, Outcome.bind_eq_ok, Outcome.pure_eq_ok] at made
      obtain ⟨wire, _, rfl⟩ := made
      exact Measure.operation_ne_filter options wire kind query
  | percentiles source percents condition =>
      simp only [Declaration.node, Outcome.bind_eq_ok, Outcome.pure_eq_ok] at made
      obtain ⟨wire, _, rfl⟩ := made
      exact Operation.noConfusion
  | topHits size sort fields =>
      simp only [Declaration.node, Outcome.bind_eq_ok, Outcome.pure_eq_ok] at made
      obtain ⟨includes, _, order, _, rfl⟩ := made
      exact Operation.noConfusion

theorem GroupKey.node_ne_filter {options : BuilderOptions} {key : GroupKey} {node : Node}
    (keyed : key.node options = .ok node) (query : Query) : node.operation ≠ .filter query := by
  cases key with
  | name wire =>
      cases keyed
      exact Operation.noConfusion
  | _ =>
      simp only [GroupKey.node, Outcome.bind_eq_ok, Outcome.pure_eq_ok] at keyed
      obtain ⟨wire, _, rfl⟩ := keyed
      exact Operation.noConfusion

private theorem Declaration.placement_isProper {options : BuilderOptions}
    {declaration : Declaration} {placed : Placement}
    (placing : declaration.placement options = .ok placed) :
    placed.IsProper := by
  cases placed with
  | plain node => exact node_ne_filter (placement_eq_plain_iff.mp placing).1
  | restricted _ => trivial

/-- No entry places a filter but for its condition. -/
theorem Entry.placement_isProper {options : BuilderOptions} {entry : Entry} {placed : Placement}
    (placing : entry.placement options = .ok placed) : placed.IsProper := by
  cases entry with
  | metric declaration => exact Declaration.placement_isProper placing
  | group key inner =>
      obtain ⟨node, inside, keyed, _, rfl⟩ := placement_group_eq_ok.mp placing
      have unfiltered := GroupKey.node_ne_filter keyed
      exact unfiltered

end Facet
