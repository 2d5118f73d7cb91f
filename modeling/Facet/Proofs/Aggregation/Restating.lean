import Facet.Proofs.Aggregation.Naming
import Facet.Proofs.Predicate.Restating
import Mathlib.Data.List.Forall2

/-!
Specifications with restated fields.

A request and its readers have nothing of a field but its dotted text. A specification is built
to the same nodes if other expressions are put in the place of its fields, or the names of the
engine in the place of the fields that it groups by, and the readers find the same results.

Owns:
- `Restated` for declarations, groups and specifications;
- that restated specifications are built alike, and that the readers look in the same places;
- the specification that names all fields directly, and the one that groups by names.

Does not own: specifications that are refused, whose errors show the expressions.
-/

namespace Facet

/-! ### Restated fields -/

/-- The same declaration over other expressions for its fields, and for those of its condition. -/
inductive Declaration.Restated : Declaration → Declaration → Prop where
  | measure {kind : Measure} {field field₂ : FieldExpr} {condition condition₂ : Option Predicate}
      (fields : field.Restated field₂)
      (conditions : Option.Rel Predicate.Restated condition condition₂) :
      Restated (.measure kind field condition) (.measure kind field₂ condition₂)
  | percentiles {field field₂ : FieldExpr} {percents : List Double}
      {condition condition₂ : Option Predicate} (fields : field.Restated field₂)
      (conditions : Option.Rel Predicate.Restated condition condition₂) :
      Restated (.percentiles field percents condition) (.percentiles field₂ percents condition₂)
  | topHits {size : Nat} {fields fields₂ : List FieldExpr}
      (projections : List.Forall₂ FieldExpr.Restated fields fields₂) :
      Restated (.topHits size none fields) (.topHits size none fields₂)
  | sortedTopHits {size : Nat} {sort sort₂ : FieldExpr} {direction : Direction}
      {fields fields₂ : List FieldExpr} (sorts : sort.Restated sort₂)
      (projections : List.Forall₂ FieldExpr.Restated fields fields₂) :
      Restated (.topHits size (some (sort, direction)) fields)
        (.topHits size (some (sort₂, direction)) fields₂)

/-- The same group over another expression for its field, or over the name of the engine for the
field. -/
inductive GroupKey.Restated : GroupKey → GroupKey → Prop where
  | field {source source₂ : FieldExpr} (sources : source.Restated source₂) :
      Restated (.field source) (.field source₂)
  | name (wire : String) : Restated (.name wire) (.name wire)
  | byName {source : FieldExpr} {wire : String} (resolved : source.wire = .ok wire) :
      Restated (.field source) (.name wire)
  | histogram {source source₂ : FieldExpr} {interval : Double}
      (sources : source.Restated source₂) :
      Restated (.histogram source interval) (.histogram source₂ interval)
  | dateHistogram {source source₂ : FieldExpr} {interval : CalendarInterval}
      (sources : source.Restated source₂) :
      Restated (.dateHistogram source interval) (.dateHistogram source₂ interval)

/-- The same entries, restated at every depth. -/
inductive Entry.Restated : List Entry → List Entry → Prop where
  | nil : Restated [] []
  | metric {declaration declaration₂ : Declaration} {rest rest₂ : List Entry}
      (declarations : declaration.Restated declaration₂) (rests : Restated rest rest₂) :
      Restated (.metric declaration :: rest) (.metric declaration₂ :: rest₂)
  | group {key key₂ : GroupKey} {inner inner₂ rest rest₂ : List Entry}
      (keys : key.Restated key₂) (inners : Restated inner inner₂) (rests : Restated rest rest₂) :
      Restated (.group key inner :: rest) (.group key₂ inner₂ :: rest₂)

def Spec.Restated (spec other : Spec) : Prop :=
  Entry.Restated spec.entries other.entries

/-! ### Replaced fields -/

/-- The declaration with every field replaced, those of its condition too. -/
def Declaration.mapFields (change : FieldExpr → FieldExpr) : Declaration → Declaration
  | .measure kind field condition =>
      .measure kind (change field) (condition.map (Predicate.mapFields change))
  | .percentiles field percents condition =>
      .percentiles (change field) percents (condition.map (Predicate.mapFields change))
  | .topHits size sort fields =>
      .topHits size (sort.map (Prod.map change id)) (fields.map change)

namespace GroupKey

/-- The group with its field replaced. -/
def mapFields (change : FieldExpr → FieldExpr) : GroupKey → GroupKey
  | .field source => .field (change source)
  | .name wire => .name wire
  | .histogram source interval => .histogram (change source) interval
  | .dateHistogram source interval => .dateHistogram (change source) interval

/-- The group by the name of its field. Histograms have no such form. -/
def byName : GroupKey → GroupKey
  | .field source =>
      match source.wire with
      | .ok wire => .name wire
      | .error _ => .field source
  | key => key

end GroupKey

mutual

/-- An entry with its declarations and groups replaced, at every depth. -/
def Entry.replace (declare : Declaration → Declaration) (group : GroupKey → GroupKey) :
    Entry → Entry
  | .metric declaration => .metric (declare declaration)
  | .group key inner => .group (group key) (Entry.replaceAll declare group inner)

def Entry.replaceAll (declare : Declaration → Declaration) (group : GroupKey → GroupKey) :
    List Entry → List Entry
  | [] => []
  | entry :: rest => entry.replace declare group :: Entry.replaceAll declare group rest

end

def Declaration.byWire (declaration : Declaration) : Declaration :=
  declaration.mapFields FieldExpr.byWire

def GroupKey.byWire (key : GroupKey) : GroupKey :=
  key.mapFields FieldExpr.byWire

namespace Spec

/-- The specification with every field named directly. -/
def byWire (spec : Spec) : Spec :=
  ⟨Entry.replaceAll Declaration.byWire GroupKey.byWire spec.entries⟩

/-- The specification with every field that it groups by replaced by its name. -/
def byName (spec : Spec) : Spec :=
  ⟨Entry.replaceAll id GroupKey.byName spec.entries⟩

end Spec

section

variable {change : FieldExpr → FieldExpr}

theorem FieldExpr.restated_map (keeps : ∀ field : FieldExpr, field.Restated (change field))
    (fields : List FieldExpr) : List.Forall₂ FieldExpr.Restated fields (fields.map change) := by
  induction fields with
  | nil => exact .nil
  | cons field rest inductionHypothesis => exact .cons (keeps field) inductionHypothesis

theorem Predicate.restated_map (keeps : ∀ field : FieldExpr, field.Restated (change field))
    (condition : Option Predicate) :
    Option.Rel Predicate.Restated condition (condition.map (Predicate.mapFields change)) := by
  cases condition with
  | none => exact .none
  | some predicate => exact .some (predicate.restated_mapFields keeps)

private theorem Declaration.restated_mapFields
    (keeps : ∀ field : FieldExpr, field.Restated (change field)) (declaration : Declaration) :
    declaration.Restated (declaration.mapFields change) := by
  cases declaration with
  | measure kind field condition =>
      exact .measure (keeps field) (Predicate.restated_map keeps condition)
  | percentiles field percents condition =>
      exact .percentiles (keeps field) (Predicate.restated_map keeps condition)
  | topHits size sort fields =>
      cases sort with
      | none => exact .topHits (FieldExpr.restated_map keeps fields)
      | some sorting =>
          exact .sortedTopHits (keeps sorting.1) (FieldExpr.restated_map keeps fields)

theorem Declaration.mapFields_id (declaration : Declaration) :
    declaration.mapFields id = declaration := by
  have conditions : Predicate.mapFields id = id := funext Predicate.mapFields_id
  cases declaration <;> simp [mapFields, conditions]

theorem Declaration.Restated.refl (declaration : Declaration) :
    declaration.Restated declaration := by
  have same : declaration.Restated (declaration.mapFields id) :=
    declaration.restated_mapFields FieldExpr.Restated.refl
  rw [mapFields_id] at same
  exact same

end

private theorem Declaration.restated_byWire (declaration : Declaration) :
    declaration.Restated declaration.byWire :=
  declaration.restated_mapFields FieldExpr.restated_byWire

namespace GroupKey

private theorem restated_byWire (key : GroupKey) : key.Restated key.byWire := by
  cases key with
  | field source => exact .field source.restated_byWire
  | name wire => exact .name wire
  | histogram source interval => exact .histogram source.restated_byWire
  | dateHistogram source interval => exact .dateHistogram source.restated_byWire

private theorem restated_byName (key : GroupKey) : key.Restated key.byName := by
  cases key with
  | field source =>
      rw [byName]
      cases resolved : source.wire with
      | ok wire => exact .byName resolved
      | error _ => exact .field (.refl source)
  | name wire => exact .name wire
  | histogram source interval => exact .histogram (.refl source)
  | dateHistogram source interval => exact .dateHistogram (.refl source)

end GroupKey

private theorem Entry.restated_replaceAll {declare : Declaration → Declaration}
    {group : GroupKey → GroupKey}
    (declared : ∀ declaration : Declaration, declaration.Restated (declare declaration))
    (grouped : ∀ key : GroupKey, key.Restated (group key)) (entries : List Entry) :
    Entry.Restated entries (Entry.replaceAll declare group entries) := by
  induction entries using Entry.induction with
  | nil => exact .nil
  | metric declaration rest restHypothesis => exact .metric (declared declaration) restHypothesis
  | group key inner rest innerHypothesis restHypothesis =>
      exact .group (grouped key) innerHypothesis restHypothesis

private theorem Spec.restated_byWire (spec : Spec) : spec.Restated spec.byWire :=
  Entry.restated_replaceAll Declaration.restated_byWire GroupKey.restated_byWire spec.entries

private theorem Spec.restated_byName (spec : Spec) : spec.Restated spec.byName :=
  Entry.restated_replaceAll Declaration.Restated.refl GroupKey.restated_byName spec.entries

/-! ### Nodes -/

private theorem FieldExpr.mapM_wire_of_restated {fields fields₂ : List FieldExpr}
    (restated : List.Forall₂ FieldExpr.Restated fields fields₂) :
    fields₂.mapM FieldExpr.wire = fields.mapM FieldExpr.wire := by
  induction restated with
  | nil => rfl
  | cons first _ inductionHypothesis =>
      rw [List.mapM_cons, List.mapM_cons, first.wire, inductionHypothesis]

namespace Declaration

variable {declaration other : Declaration}

private theorem Restated.node (restated : declaration.Restated other) (options : BuilderOptions) :
    other.node options = declaration.node options := by
  cases restated with
  | measure fields _ | percentiles fields _ =>
      simp only [Declaration.node, fields.wire]
  | topHits projections =>
      simp only [Declaration.node, FieldExpr.mapM_wire_of_restated projections]
  | sortedTopHits sorts projections =>
      simp only [Declaration.node, FieldExpr.mapM_wire_of_restated projections, sortWire,
        sorts.wire]

private theorem Restated.condition (restated : declaration.Restated other) :
    Option.Rel Predicate.Restated declaration.condition other.condition := by
  cases restated with
  | measure _ conditions | percentiles _ conditions => exact conditions
  | topHits _ | sortedTopHits _ _ => exact .none

/-- A restated declaration places the same. -/
theorem Restated.placement {options : BuilderOptions} {placed : Placement}
    (restated : declaration.Restated other)
    (placing : declaration.placement options = .ok placed) :
    other.placement options = .ok placed := by
  have conditions := restated.condition
  cases placed with
  | plain node =>
      obtain ⟨made, unconditional⟩ := placement_eq_plain_iff.mp placing
      rw [unconditional] at conditions
      cases none : other.condition with
      | none => exact placement_eq_plain_iff.mpr ⟨(restated.node options).trans made, none⟩
      | some condition =>
          rw [none] at conditions
          cases conditions
  | restricted metric =>
      obtain ⟨made, condition, conditional, signed, compiled⟩ :=
        placement_eq_restricted_iff.mp placing
      rw [conditional] at conditions
      cases some : other.condition with
      | none =>
          rw [some] at conditions
          cases conditions
      | some condition₂ =>
          rw [some] at conditions
          cases conditions with
          | some predicates =>
              exact placement_eq_restricted_iff.mpr ⟨(restated.node options).trans made,
                condition₂, some, Predicate.signature_of_restated signed predicates,
                Predicate.compile_of_restated compiled predicates⟩

end Declaration

private theorem GroupKey.Restated.node {key other : GroupKey} (restated : key.Restated other)
    (options : BuilderOptions) : other.node options = key.node options := by
  cases restated with
  | field sources | histogram sources | dateHistogram sources =>
      simp only [GroupKey.node, sources.wire]
  | name wire => rfl
  | byName resolved =>
      simp only [GroupKey.node, resolved]
      rfl

namespace Spec

variable {options : BuilderOptions}

/-- Restated entries are added to a level with the same result. -/
theorem addEntries_of_restated {entries others : List Entry} {level built : List Node}
    (restated : Entry.Restated entries others)
    (added : (addEntries options level entries).outcome = .ok built) :
    (addEntries options level others).outcome = .ok built := by
  induction restated generalizing level built with
  | nil => exact added
  | metric declarations _ restHypothesis =>
      rw [addEntries_cons_outcome, addEntry_metric_outcome] at added ⊢
      obtain ⟨extended, inserting, restAdded⟩ := Outcome.bind_eq_ok.mp added
      obtain ⟨placed, placing, inserted⟩ := Outcome.bind_eq_ok.mp inserting
      rw [declarations.placement placing, Outcome.ok_bind, inserted, Outcome.ok_bind]
      exact restHypothesis restAdded
  | group keys _ _ innerHypothesis restHypothesis =>
      rw [addEntries_cons_outcome, addEntry_group_outcome, keys.node] at *
      simp only [Outcome.bind_eq_ok] at added ⊢
      obtain ⟨extended, ⟨node, keyed, children, grouped, inserted⟩, restAdded⟩ := added
      exact ⟨extended, ⟨node, keyed, children, innerHypothesis grouped, inserted⟩,
        restHypothesis restAdded⟩

/-- A restated specification is built to the same request. -/
theorem build_of_restated {spec other : Spec} {built : Aggregations}
    (restated : spec.Restated other) (succeeds : (spec.build options).outcome = .ok built) :
    (other.build options).outcome = .ok built := by
  rw [build_outcome, Outcome.map_eq_ok] at succeeds ⊢
  obtain ⟨nodes, added, same⟩ := succeeds
  exact ⟨nodes, addEntries_of_restated restated added, same⟩

end Spec

/-! ### Readers -/

private theorem MetricKind.address_of_restated {kind : MetricKind} {field field₂ : FieldExpr}
    {condition condition₂ : Option Predicate} {address : Address}
    (fields : field.Restated field₂)
    (conditions : Option.Rel Predicate.Restated condition condition₂)
    (computed : kind.address field condition = .ok address) :
    kind.address field₂ condition₂ = .ok address := by
  rw [MetricKind.address, Outcome.bind_eq_ok] at computed ⊢
  obtain ⟨wire, resolved, rest⟩ := computed
  refine ⟨wire, fields.wire.trans resolved, ?_⟩
  cases conditions with
  | none => exact rest
  | some predicates =>
      obtain ⟨signature, signed, made⟩ := Outcome.bind_eq_ok.mp rest
      exact Outcome.bind_eq_ok.mpr
        ⟨signature, Predicate.signature_of_restated signed predicates, made⟩

/-- The readers of a restated declaration compute the same address. -/
theorem Declaration.Restated.address {declaration other : Declaration} {address : Address}
    (restated : declaration.Restated other) (computed : declaration.address = .ok address) :
    other.address = .ok address := by
  cases restated with
  | measure fields conditions | percentiles fields conditions =>
      exact MetricKind.address_of_restated fields conditions computed
  | topHits _ => exact computed
  | sortedTopHits sorts _ =>
      rw [Declaration.address, sorts.wire]
      exact computed

/-- The readers of a restated group look for the same target. -/
theorem GroupKey.Restated.target {key other : GroupKey} (restated : key.Restated other) :
    other.target = key.target := by
  cases restated with
  | field sources | histogram sources | dateHistogram sources =>
      simp only [GroupKey.target, sources.wire]
  | name wire => rfl
  | byName resolved =>
      rw [GroupKey.target, GroupKey.target, resolved]
      rfl

/-- In every tree, the readers of both declarations take the result at one address. -/
def Declaration.IsReadAs (declaration other : Declaration) : Prop :=
  ∃ address, declaration.address = .ok address ∧ declaration.IsReadAt address ∧
    other.address = .ok address ∧ other.IsReadAt address

/-- In every tree, the readers of both groups find the same buckets. -/
def GroupKey.IsReadAs (key other : GroupKey) : Prop :=
  ∀ tree : Tree, tree.readBuckets other = tree.readBuckets key

private theorem Declaration.Restated.isReadAs {declaration other : Declaration} {address : Address}
    (restated : declaration.Restated other) (computed : declaration.address = .ok address) :
    declaration.IsReadAs other :=
  ⟨address, computed, isReadAt_of_address computed, restated.address computed,
    isReadAt_of_address (restated.address computed)⟩

private theorem GroupKey.Restated.isReadAs {key other : GroupKey} (restated : key.Restated other) :
    key.IsReadAs other := by
  intro tree
  rw [tree.readBuckets_eq, tree.readBuckets_eq, restated.target]

/-! ### Texts of fields -/

namespace Spec

/-- **Only the dotted text of a field matters.** A specification that is built, under whatever
options, is built to the same request if all its fields, also those of its conditions, are named
directly by their texts, if it groups by these texts in place of the fields, and however else its
fields are restated; and what is declared is read in the same places then. A predicate that
compiles does so to the same query, and with the same signature, if all its fields are named
directly, and the documents that satisfy it are counted in the same place. -/
theorem only_wire_matters :
    (∀ (options : BuilderOptions) (spec : Spec) (built : Aggregations),
      (spec.build options).outcome = .ok built →
        (spec.byWire.build options).outcome = .ok built ∧
        (spec.byName.build options).outcome = .ok built ∧
        (∀ other, spec.Restated other → (other.build options).outcome = .ok built) ∧
        AtEveryLevel (fun level =>
          (∀ declaration, .metric declaration ∈ level →
            declaration.IsReadAs declaration.byWire) ∧
          ∀ key inner, .group key inner ∈ level →
            key.IsReadAs key.byWire ∧ key.IsReadAs key.byName) spec.entries) ∧
    ∀ (options : CompilerOptions) (predicate : Predicate) (query : Query),
      (predicate.compile options).outcome = .ok query →
        (predicate.byWire.compile options).outcome = .ok query ∧
        (∃ signature, predicate.signature = .ok signature ∧
          predicate.byWire.signature = .ok signature) ∧
        ∀ tree : Tree, tree.filterCount predicate.byWire = tree.filterCount predicate := by
  constructor
  · intro options spec built succeeds
    refine ⟨build_of_restated spec.restated_byWire succeeds,
      build_of_restated spec.restated_byName succeeds,
      fun other restated => build_of_restated restated succeeds, ?_⟩
    intro level reached
    obtain ⟨nodes, _, levelPlaced⟩ := exists_matching_of_build succeeds reached
    constructor
    · intro declaration member
      obtain ⟨address, _, computed, _⟩ := declaration_isAddressed levelPlaced member
      exact declaration.restated_byWire.isReadAs computed
    · intro key inner _
      exact ⟨key.restated_byWire.isReadAs, key.restated_byName.isReadAs⟩
  · intro options predicate query compiled
    obtain ⟨signature, signed⟩ := Predicate.signature_of_compile compiled
    have direct := Predicate.signature_of_restated signed predicate.restated_byWire
    refine ⟨Predicate.compile_of_restated compiled predicate.restated_byWire,
      ⟨signature, signed, direct⟩, ?_⟩
    intro tree
    rw [Tree.filterCount, Tree.filterCount, direct, signed]

/-- The weights by the type of car, grouped by the name of the engine for it, and a condition on
the passengers with its fields named directly. -/
theorem weightByType_restated :
    let young := Predicate.any (.property "Passengers")
      (.compare ⟨.less, .property "Age", .integer 3⟩)
    let named := Predicate.any (.ofWire "passengers")
      (.compare ⟨.less, .ofWire "age", .integer 3⟩)
    weightByType.byName = ⟨[.group (.name "carType") weights]⟩ ∧
      (weightByType.byName.build .standard).outcome = (weightByType.build .standard).outcome ∧
      young.byWire = named ∧
      ∃ query, (young.compile .standard).outcome = .ok query ∧
        (named.compile .standard).outcome = .ok query := by
  intro young named
  have succeeds : (weightByType.build .standard).outcome = .ok _ := rfl
  have compiled : (young.compile .standard).outcome = .ok _ := rfl
  have direct : young.byWire = named := rfl
  obtain ⟨_, byName, _⟩ := only_wire_matters.1 .standard weightByType _ succeeds
  obtain ⟨byWire, _⟩ := only_wire_matters.2 .standard young _ compiled
  rw [direct] at byWire
  exact ⟨rfl, byName.trans succeeds.symm, direct, _, compiled, byWire⟩

end Spec

end Facet
