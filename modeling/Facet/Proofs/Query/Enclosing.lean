import Facet.Proofs.Field.Below
import Facet.Proofs.Following
import Facet.Proofs.Query.Refusal

/-!
Conditions on the elements of collections.

A condition on the elements of a collection is compiled as if the elements were documents of
their own, and then every field and every path in its query is put below the path of the
collection. Of the nested paths, those below the collection count for its elements.

Owns:
- queries, ranges and events enclosed by a path, and the options for the elements of a
  collection;
- that lowering below a path follows lowering the same predicate on its own, with its events;
- the query of a condition on elements.
-/

namespace Facet

/-! ### Enclosed queries -/

namespace Query

mutual

/-- A query with all of its fields and paths below a path. -/
def enclosed (path : Path) : Query → Query
  | .matchAll => .matchAll
  | .term field value => .term (path.enclose field) value
  | .range field kind bounds => .range (path.enclose field) kind bounds
  | .present field => .present (path.enclose field)
  | .bool must should mustNot minimumShouldMatch =>
      .bool (enclosedAll path must) (enclosedAll path should) (enclosedAll path mustNot)
        minimumShouldMatch
  | .nested inner query => .nested (path.enclose inner) (enclosed path query)

def enclosedAll (path : Path) : List Query → List Query
  | [] => []
  | clause :: clauses => enclosed path clause :: enclosedAll path clauses

end

/-- A range with its field below a path. -/
def Range.enclosed (path : Path) (range : Range) : Range :=
  { range with field := path.enclose range.field }

variable {path : Path}

@[simp] theorem isMatchAll_enclosed (query : Query) :
    (query.enclosed path).isMatchAll = query.isMatchAll := by
  cases query <;> rfl

@[simp] theorem enclosedAll_append (first second : List Query) :
    enclosedAll path (first ++ second) = enclosedAll path first ++ enclosedAll path second := by
  induction first with
  | nil => rfl
  | cons clause rest inductionHypothesis =>
      exact congrArg (enclosed path clause :: ·) inductionHypothesis

mutual

/-- An enclosed query has the same ranges, each with its field below the path. -/
theorem ranges_enclosed : ∀ query : Query,
    (query.enclosed path).ranges = query.ranges.map (Range.enclosed path)
  | .matchAll | .term _ _ | .range _ _ _ | .present _ => rfl
  | .bool must should mustNot _ => by
      simp only [enclosed, ranges, List.map_append, rangesAll_enclosed must,
        rangesAll_enclosed should, rangesAll_enclosed mustNot]
  | .nested _ inner => ranges_enclosed inner

private theorem rangesAll_enclosed : ∀ clauses : List Query,
    rangesAll (enclosedAll path clauses) = (rangesAll clauses).map (Range.enclosed path)
  | [] => rfl
  | clause :: clauses => by
      simp only [enclosedAll, rangesAll, List.map_append, ranges_enclosed clause,
        rangesAll_enclosed clauses]

end

end Query

/-- An event about a field, with the field below a path. -/
def Emission.enclosed (path : Path) (emission : Emission) : Emission :=
  ⟨emission.event, emission.fields.map fun field => (field.1, path.enclose field.2)⟩

namespace CompilerOptions

/-- The options for the elements of a collection: of the nested paths, those below it. -/
def forElements (options : CompilerOptions) (path : Path) : CompilerOptions where
  mergeRanges := options.mergeRanges
  nestedPaths := options.nestedPaths.filterMap path.remainder?
  increasing := by
    refine options.increasing.filterMap _ ?_
    intro first second less rest taken other otherTaken
    rw [Path.remainder?_eq_some_iff.mp taken, Path.remainder?_eq_some_iff.mp otherTaken] at less
    exact Path.lt_of_enclose_lt less

private theorem isNested_forElements (options : CompilerOptions) (path : Path) (wire : String) :
    (options.forElements path).isNested wire = options.isNested (path.enclose wire) := by
  rw [Bool.eq_iff_iff, isNested, isNested, List.contains_iff_mem, List.contains_iff_mem,
    forElements, List.mem_filterMap]
  constructor
  · rintro ⟨registered, member, taken⟩
    rw [Path.remainder?_eq_some_iff.mp taken] at member
    exact member
  · intro member
    exact ⟨_, member, Path.remainder?_eq_some_iff.mpr rfl⟩

end CompilerOptions

/-! ### Literals and comparisons -/

/-- A literal is the same in every context, but for what its error says. -/
theorem Literal.toJson_follows (literal : Literal) (context other : String) :
    Outcome.Follows id (literal.toJson context) (literal.toJson other) := by
  cases literal with
  | float value => cases value <;> first | exact .ok _ | exact .error rfl
  | bytes _ | list _ => exact .error rfl
  | _ => exact .ok _

namespace Comparison

variable {scope : Option Path}

/-- Whether comparisons merge does not depend on the path that they are below. -/
theorem merges_beneath (path : Path) (scope : Option Path) (left right : Comparison) :
    merges (some (path.beneath scope)) left right = merges scope left right := by
  unfold merges
  split
  · simp only [FieldExpr.wireWithin_beneath]
    cases left.field.wireWithin scope with
    | error _ => rfl
    | ok leftWire =>
        cases right.field.wireWithin scope with
        | error _ => rfl
        | ok rightWire =>
            have same : (path.enclose leftWire == path.enclose rightWire) =
                (leftWire == rightWire) := by
              rw [Bool.eq_iff_iff, beq_iff_eq, beq_iff_eq]
              exact Path.enclose_inj
            exact congrArg Except.ok same
  · rfl

private theorem range_follows (path : Path) (scope : Option Path) (comparison : Comparison) :
    Outcome.Follows (Query.Range.enclosed path) (comparison.range scope)
      (comparison.range (some (path.beneath scope))) := by
  unfold range
  rw [FieldExpr.wireWithin_beneath]
  refine (Outcome.Follows.of_map _ _).bind fun wire => ?_
  cases rangeKind? comparison.value with
  | none => exact .error rfl
  | some kind =>
      refine (Literal.toJson_follows comparison.value _ _).bind fun json => ?_
      exact .ok _

private theorem lower_follows (path : Path) (scope : Option Path) (comparison : Comparison) :
    Outcome.Follows (Query.enclosed path) (comparison.lower scope)
      (comparison.lower (some (path.beneath scope))) := by
  unfold lower
  split
  · rw [FieldExpr.wireWithin_beneath]
    refine (Outcome.Follows.of_map _ _).bind fun wire => ?_
    exact .ok _
  · refine (range_follows path scope comparison).bind fun range => ?_
    exact .ok _

private theorem merged_follows (path : Path) (scope : Option Path) (lower upper : Comparison) :
    Traced.Follows (Emission.enclosed path) (Query.enclosed path) (merged scope lower upper)
      (merged (some (path.beneath scope)) lower upper) := by
  unfold merged
  refine (Traced.Follows.liftM (range_follows path scope lower)).bind fun lowerRange => ?_
  refine (Traced.Follows.liftM (range_follows path scope upper)).bind fun upperRange => ?_
  have reported : Traced.Follows (Emission.enclosed path) id
      (Traced.emit .rangeMerged [("field", lowerRange.field)])
      (Traced.emit .rangeMerged [("field", path.enclose lowerRange.field)]) :=
    ⟨rfl, .ok ()⟩
  refine reported.bind fun _ => ?_
  exact .pure _ _

end Comparison

/-! ### Predicates -/

namespace Predicate

variable {options : CompilerOptions} {scope : Option Path}

/-- What an enclosed predicate contributes to a conjunction. -/
def Lowered.enclosed (path : Path) : Lowered → Lowered
  | .one query => .one (query.enclosed path)
  | .chain clauses => .chain (Query.enclosedAll path clauses)

@[simp] theorem Lowered.query_enclosed (path : Path) (result : Lowered) :
    (result.enclosed path).query = result.query.enclosed path := by
  cases result with
  | one query => rfl
  | chain clauses => cases clauses <;> rfl

@[simp] theorem Lowered.clauses_enclosed (path : Path) (result : Lowered) :
    (result.enclosed path).clauses = Query.enclosedAll path result.clauses := by
  cases result with
  | one query =>
      simp only [Lowered.enclosed, Lowered.clauses, Query.isMatchAll_enclosed]
      split <;> rfl
  | chain clauses => rfl

/-- Which comparisons merge does not depend on the path that they are below. -/
theorem mergedPair_beneath (path : Path) (scope : Option Path) (left right : Predicate) :
    mergedPair options (some (path.beneath scope)) left right =
      mergedPair (options.forElements path) scope left right := by
  unfold mergedPair
  split
  · rw [Comparison.merges_beneath]
    rfl
  · rfl

private theorem examine_beneath (path : Path) (scope : Option Path) (predicate : Predicate) :
    examine options (some (path.beneath scope)) predicate =
      examine (options.forElements path) scope predicate := by
  induction predicate with
  | and left right leftHypothesis rightHypothesis =>
      simp only [examine, mergedPair_beneath, leftHypothesis, rightHypothesis]
  | _ => rfl

private theorem lowerEquals_follows (path : Path) (scope : Option Path) (field : FieldExpr)
    (value : Literal) :
    Outcome.Follows (Query.enclosed path) (lowerEquals scope field value)
      (lowerEquals (some (path.beneath scope)) field value) := by
  unfold lowerEquals
  rw [FieldExpr.wireWithin_beneath]
  refine (Outcome.Follows.of_map _ _).bind fun wire => ?_
  split
  · exact .ok _
  · refine (Literal.toJson_follows value _ _).bind fun json => ?_
    exact .ok _

/-- A field named below a path goes the way of the field named on its own. -/
theorem wireWithin_follows (path : Path) (scope : Option Path) (field : FieldExpr)
    {query : String → Query}
    (enclosing : ∀ wire, (query wire).enclosed path = query (path.enclose wire)) :
    Traced.Follows (Emission.enclosed path) (Lowered.enclosed path)
      (do return Lowered.one (query (← field.wireWithin scope)))
      (do return Lowered.one (query (← field.wireWithin (some (path.beneath scope))))) := by
  rw [FieldExpr.wireWithin_beneath]
  refine (Traced.Follows.liftM (Outcome.Follows.of_map _ _)).bind fun wire => ?_
  rw [← enclosing]
  exact .pure _ (Lowered.enclosed path)

/-- **Lowering below a path follows lowering on its own.** Below the scope of a collection, a
predicate is lowered as among the elements, with its fields, paths and events enclosed. -/
theorem lowered_follows (path : Path) (scope : Option Path) (predicate : Predicate) :
    Traced.Follows (Emission.enclosed path) (Lowered.enclosed path)
      (lowered (options.forElements path) scope predicate)
      (lowered options (some (path.beneath scope)) predicate) := by
  -- for every scope at once, since the elements of an inner collection have a scope of their own
  induction predicate generalizing scope with
  | and left right leftHypothesis rightHypothesis =>
      simp only [lowered, mergedPair_beneath, examine_beneath]
      refine (Traced.Follows.liftM (.refl _)).bind fun pair => ?_
      cases pair with
      | some comparisons =>
          refine (Comparison.merged_follows path scope _ _).bind fun query => ?_
          exact .pure _ (Lowered.enclosed path)
      | none =>
          refine (Traced.Follows.liftM (.refl _)).bind fun _ => ?_
          refine (Traced.Follows.liftM (.refl _)).bind fun _ => ?_
          refine (leftHypothesis scope).bind fun leftLowered => ?_
          refine (rightHypothesis scope).bind fun rightLowered => ?_
          rw [Lowered.clauses_enclosed, Lowered.clauses_enclosed, ← Query.enclosedAll_append]
          exact .pure _ (Lowered.enclosed path)
  | or left right leftHypothesis rightHypothesis =>
      refine (leftHypothesis scope).bind fun leftLowered => ?_
      refine (rightHypothesis scope).bind fun rightLowered => ?_
      rw [Lowered.query_enclosed, Lowered.query_enclosed]
      exact .pure _ (Lowered.enclosed path)
  | not inner innerHypothesis =>
      refine (innerHypothesis scope).bind fun innerLowered => ?_
      rw [Lowered.query_enclosed]
      exact .pure _ (Lowered.enclosed path)
  | compare comparison =>
      refine (Traced.Follows.liftM (comparison.lower_follows path scope)).bind fun query => ?_
      exact .pure _ (Lowered.enclosed path)
  | equals field value =>
      refine (Traced.Follows.liftM (lowerEquals_follows path scope field value)).bind
        fun query => ?_
      exact .pure _ (Lowered.enclosed path)
  | notEquals field value =>
      simp only [lowered]
      split
      · exact wireWithin_follows path scope field fun _ => rfl
      · refine (Traced.Follows.liftM (lowerEquals_follows path scope field value)).bind
          fun query => ?_
        exact .pure _ (Lowered.enclosed path)
  | flag field => exact wireWithin_follows path scope field fun _ => rfl
  | present field => exact wireWithin_follows path scope field fun _ => rfl
  | holds field =>
      simp only [lowered]
      split
      · exact wireWithin_follows path scope field fun _ => rfl
      · exact ⟨rfl, .error rfl⟩
  | any collection inner innerHypothesis =>
      simp only [lowered, FieldExpr.resolveWithin_beneath]
      refine (Traced.Follows.liftM (Outcome.Follows.of_map _ _)).bind fun found => ?_
      refine (innerHypothesis (some found)).bind fun innerLowered => ?_
      rw [Path.wire_under, CompilerOptions.isNested_forElements, Lowered.query_enclosed]
      split
      · exact .pure _ (Lowered.enclosed path)
      · exact .pure _ (Lowered.enclosed path)
  | call target method => exact ⟨rfl, .error rfl⟩

/-! ### Conditions on elements -/

/-- The merges that a computation reports, in order. -/
def reportedMerges {α : Type} (run : Traced α) : List Emission :=
  run.emissions.filter (·.event == .rangeMerged)

/-- Compiling reports the merges of lowering; how it ends is another event. -/
theorem reportedMerges_compile (options : CompilerOptions) (predicate : Predicate) :
    reportedMerges (predicate.compile options) =
      reportedMerges (predicate.lower options none) := by
  unfold reportedMerges compile Traced.conclude
  cases (lower options none predicate).outcome <;> simp

private theorem reportedMerges_follows {α β : Type} {path : Path} {change : α → β}
    {first : Traced α} {second : Traced β}
    (follows : Traced.Follows (Emission.enclosed path) change first second) :
    reportedMerges second = (reportedMerges first).map (Emission.enclosed path) := by
  rw [reportedMerges, reportedMerges, follows.emissions, List.filter_map]
  rfl

/-- A condition on the elements of a collection, from the query of their condition. -/
def onElements (options : CompilerOptions) (path : Path) (query : Query) : Query :=
  if options.isNested path.wire then .nested path.wire query else .allOf [query]

/-- Below every scope, a condition on elements follows their condition on its own. -/
theorem lower_any_follows (options : CompilerOptions) {collection : FieldExpr} {path : Path}
    (reached : collection.resolveWithin scope = .ok path) (predicate : Predicate) :
    Traced.Follows (Emission.enclosed path)
      (fun query => onElements options path (query.enclosed path))
      (predicate.lower (options.forElements path) none)
      ((any collection predicate).lower options scope) := by
  simp only [lower, lowered, Traced.liftM_of_ok reached, pure_bind, bind_assoc]
  refine (lowered_follows path none predicate).bind fun inner => ?_
  rw [Lowered.query_enclosed]
  simp only [onElements]
  split
  · exact ⟨rfl, .ok inner.query⟩
  · exact ⟨rfl, .ok inner.query⟩

/-- **A condition on elements is the enclosed condition of one element.** If the condition of an
element has a query on its own, under the options for the elements, then the condition on a
collection has that query below the path of the collection, nested if the collection is
registered and as the one required clause otherwise. It has the same ranges and it reports the
same merges, each below the path; and if the one is refused, then so is the other, with an error
of the same kind. The same holds for a collection within a collection, to any depth. -/
theorem any_compiles_enclosed {collection : FieldExpr} {path : Path}
    (resolved : collection.resolve = .ok path) (options : CompilerOptions)
    (predicate : Predicate) :
    ((options.forElements path).mergeRanges = options.mergeRanges ∧
      ∀ wire, (options.forElements path).isNested wire =
        options.isNested (path.wire ++ "." ++ wire)) ∧
    (∀ query, (predicate.compile (options.forElements path)).outcome = .ok query →
      ((any collection predicate).compile options).outcome =
        .ok (onElements options path (query.enclosed path)) ∧
      (query.enclosed path).ranges = query.ranges.map (Query.Range.enclosed path)) ∧
    (∀ error, (predicate.compile (options.forElements path)).outcome = .error error →
      ∃ other, ((any collection predicate).compile options).outcome = .error other ∧
        other.code = error.code) ∧
    reportedMerges ((any collection predicate).compile options) =
      (reportedMerges (predicate.compile (options.forElements path))).map
        (Emission.enclosed path) ∧
    ∀ scope, Traced.Follows (Emission.enclosed (path.within scope))
      (fun query => onElements options (path.within scope) (query.enclosed (path.within scope)))
      (predicate.lower (options.forElements (path.within scope)) none)
      ((any collection predicate).lower options scope) := by
  have reached (scope : Option Path) :
      collection.resolveWithin scope = .ok (path.within scope) :=
    Outcome.bind_eq_ok.mpr ⟨path, resolved, rfl⟩
  have follows (scope : Option Path) := lower_any_follows options (reached scope) predicate
  have atTop := (follows none).outcome
  rw [← compile_outcome, ← compile_outcome] at atTop
  refine ⟨⟨rfl, options.isNested_forElements path⟩, ?_, fun _ => atTop.exists_error, ?_, follows⟩
  · intro query compiled
    exact ⟨atTop.eq_ok compiled, query.ranges_enclosed⟩
  · rw [reportedMerges_compile, reportedMerges_compile]
    exact reportedMerges_follows (follows none)

/-- Pets between two and six years old, of the passengers of a car: the range is merged among the
pets, and stands below both nested collections. -/
theorem petsOfPassengers_compile_enclosed :
    let pets := Predicate.any (.property "Pets")
      (.and (.compare ⟨.greaterOrEqual, .property "Age", .integer 2⟩)
        (.compare ⟨.lessOrEqual, .property "Age", .integer 6⟩))
    let options := (CompilerOptions.standard.addNested "passengers").addNested "passengers.pets"
    let bounds : Bounds :=
      { Bounds.none with atLeast := some (.ofInt 2), atMost := some (.ofInt 6) }
    ∃ passengers, (FieldExpr.property "Passengers").resolve = .ok passengers ∧
      options.forElements passengers = CompilerOptions.standard.addNested "pets" ∧
      (pets.compile (options.forElements passengers)).outcome =
        .ok (.nested "pets" (.range "pets.age" .numeric bounds)) ∧
      ((any (.property "Passengers") pets).compile options).outcome =
        .ok (.nested "passengers"
          (.nested "passengers.pets" (.range "passengers.pets.age" .numeric bounds))) ∧
      reportedMerges ((any (.property "Passengers") pets).compile options) =
        [⟨.rangeMerged, [("field", "passengers.pets.age")]⟩] := by
  intro pets options bounds
  have resolved : (FieldExpr.property "Passengers").resolve = .ok _ := rfl
  refine ⟨_, resolved, rfl, rfl, ?_, ?_⟩
  · exact ((any_compiles_enclosed resolved options pets).2.1 _ rfl).1
  · exact (any_compiles_enclosed resolved options pets).2.2.2.1

end Predicate

end Facet
