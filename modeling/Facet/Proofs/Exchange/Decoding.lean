import Facet.Exchange
import Facet.Proofs.Aggregation.Decoding

/-!
Search requests read back from their bodies.

Owns:
- that siblings have distinct names at every level of a built request;
- the reading of search requests, and that it recovers every request that arises from a
  predicate and a specification;
- that such requests have one body only if they are equal, up to the difference between ranges
  of dates and ranges of terms.
-/

namespace Facet

/-! ### Siblings -/

namespace Spec

variable {options : BuilderOptions}

/-- No two siblings of a built request share a name: not at the root, nor within any node. -/
theorem nodup_names_of_build {spec : Spec} {built : Aggregations}
    (succeeds : (spec.build options).outcome = .ok built) :
    (built.nodes.map Node.name).Nodup ∧
      ∀ node, Node.Within built.nodes node → (node.children.map Node.name).Nodup := by
  obtain ⟨placed, placing, separate, same⟩ := placements_of_build succeeds
  have levelPlaced := levelPlaced_of_separate placing separate
  rw [same]
  constructor
  · obtain ⟨_, _, levelSeparate, also⟩ := levelPlaced
    rw [also]
    exact nodup_names_arrange levelSeparate
  · exact fun node within => (isSound_of_within levelPlaced separate within).unique

/-- The nodes of a built request can be read back, if their doubles are finite. -/
theorem isLegible_of_build {spec : Spec} {built : Aggregations} {node : Node}
    (succeeds : (spec.build options).outcome = .ok built) (within : Node.Within built.nodes node)
    (finite : node.operation.IsFinite) : node.IsLegible where
  unique := (nodup_names_of_build succeeds).2 node within
  finite := finite
  filters query filtered := by
    obtain ⟨placed, placing, separate, same⟩ := placements_of_build succeeds
    rw [same] at within
    have levelPlaced := levelPlaced_of_separate placing separate
    obtain ⟨condition, compiled⟩ := compiled_of_within levelPlaced separate within filtered
    exact Predicate.ofJson?_of_compile compiled

end Spec

/-! ### Requests -/

namespace SearchRequest

/-- A request with its ranges of dates and of terms alike. -/
def unified (request : SearchRequest) : SearchRequest where
  query := request.query.map Query.unified
  aggregations := request.aggregations.unified
  size := request.size

/-- The request of a body. -/
def ofJson? (body : Json) : Option SearchRequest := do
  let query ← (body.get? "query").mapM Query.ofJson?
  let aggregations ← (body.get? "aggs").elim (some .empty) Aggregations.ofJson?
  let size ← (body.get? "size").mapM Json.asNat?
  return ⟨query, aggregations, size⟩

/-- A request whose query is compiled and whose aggregations are built, under whatever options,
with finite percents and intervals. -/
structure Arises (request : SearchRequest) : Prop where
  query : ∀ query, request.query = some query →
    ∃ options, ∃ predicate : Predicate, (predicate.compile options).outcome = .ok query
  aggregations : ∃ options, ∃ spec : Spec, (spec.build options).outcome = .ok request.aggregations
  finite : ∀ node, Node.Within request.aggregations.nodes node → node.operation.IsFinite

/-- The sections of a body, each of them left out if there is nothing in it. -/
theorem toJson_eq (request : SearchRequest) :
    request.toJson =
      .object (Bounds.member "query" (request.query.map Query.toJson) ++
        Bounds.member "aggs"
          (if request.aggregations.isEmpty then none else some request.aggregations.toJson) ++
        Bounds.member "size" (request.size.map Json.ofNat)) := by
  obtain ⟨query, aggregations, size⟩ := request
  rw [toJson, aggregationsMember]
  cases query <;> cases aggregations.isEmpty <;> cases size <;> rfl

/-- Every section of a body is found under its own name. -/
theorem get?_toJson (request : SearchRequest) :
    request.toJson.get? "query" = request.query.map Query.toJson ∧
      (request.toJson.get? "aggs" =
        if request.aggregations.isEmpty then none else some request.aggregations.toJson) ∧
      request.toJson.get? "size" = request.size.map Json.ofNat := by
  simp [toJson_eq, Json.get?]

private theorem Arises.query_read {request : SearchRequest} (arises : request.Arises) :
    (request.toJson.get? "query").mapM Query.ofJson? = some (request.query.map Query.unified) := by
  rw [request.get?_toJson.1]
  cases queried : request.query with
  | none => rfl
  | some query =>
      obtain ⟨_, _, compiled⟩ := arises.query query queried
      have read := Predicate.ofJson?_of_compile compiled
      show (some <$> Query.ofJson? query.toJson) = _
      rw [read]
      rfl

private theorem Arises.aggregations_read {request : SearchRequest} (arises : request.Arises) :
    (request.toJson.get? "aggs").elim (some .empty) Aggregations.ofJson? =
      some request.aggregations.unified := by
  rw [request.get?_toJson.2.1]
  split
  · next empty =>
      have none : request.aggregations.nodes = [] := List.isEmpty_iff.mp empty
      rw [Aggregations.unified, none]
      rfl
  · obtain ⟨_, _, succeeds⟩ := arises.aggregations
    exact Aggregations.ofJson?_toJson (Spec.nodup_names_of_build succeeds).1
      fun node within => Spec.isLegible_of_build succeeds within (arises.finite node within)

private theorem size_read (request : SearchRequest) :
    (request.toJson.get? "size").mapM Json.asNat? = some request.size := by
  rw [request.get?_toJson.2.2]
  cases request.size <;> rfl

/-- Every request that arises is read back from its body. -/
theorem Arises.ofJson?_toJson {request : SearchRequest} (arises : request.Arises) :
    ofJson? request.toJson = some request.unified := by
  rw [ofJson?, arises.query_read, arises.aggregations_read, request.size_read]
  rfl

/-- Requests that differ in dates and terms alone have one body. -/
theorem toJson_unified (request : SearchRequest) : request.unified.toJson = request.toJson := by
  have queries : (request.query.map Query.unified).map Query.toJson =
      request.query.map Query.toJson := by
    cases request.query with
    | none => rfl
    | some query => exact congrArg some query.toJson_unified
  have empty : request.aggregations.unified.isEmpty = request.aggregations.isEmpty := by
    obtain ⟨query, ⟨nodes⟩, size⟩ := request
    cases nodes <;> rfl
  rw [toJson_eq, toJson_eq, unified, queries, empty, Aggregations.toJson_unified]

/-- **The body of a request loses nothing.** Siblings of built requests have distinct names, at
every level. Every request that arises is read back from its body, and so two of them have one
body exactly if their sizes, queries and aggregations are the same, up to the difference between
ranges of dates and ranges of terms. -/
theorem body_loses_nothing :
    (∀ options (spec : Spec) built, (spec.build options).outcome = .ok built →
      (built.nodes.map Node.name).Nodup ∧
        ∀ node, Node.Within built.nodes node → (node.children.map Node.name).Nodup) ∧
    (∀ request : SearchRequest, request.Arises →
      ofJson? request.toJson = some request.unified) ∧
    ∀ left right : SearchRequest, left.Arises → right.Arises →
      (left.toJson = right.toJson ↔
        left.size = right.size ∧ left.query.map Query.unified = right.query.map Query.unified ∧
          left.aggregations.unified = right.aggregations.unified) := by
  refine ⟨fun _ _ _ => Spec.nodup_names_of_build, fun _ => Arises.ofJson?_toJson, ?_⟩
  intro left right leftArises rightArises
  have same : left.toJson = right.toJson ↔ left.unified = right.unified := by
    constructor
    · intro bodies
      have read := leftArises.ofJson?_toJson
      rw [bodies, rightArises.ofJson?_toJson] at read
      exact (Option.some.inj read).symm
    · intro requests
      rw [← left.toJson_unified, requests, right.toJson_unified]
  rw [same, unified, unified, mk.injEq]
  constructor
  · rintro ⟨queries, aggregations, sizes⟩
    exact ⟨sizes, queries, aggregations⟩
  · rintro ⟨sizes, queries, aggregations⟩
    exact ⟨queries, aggregations, sizes⟩

/-- Prices by weight, in steps of 128, of the cars built since some time. Whether the time is a
date or a text does not show in the body, and everything else is read back from it. -/
theorem carsBuiltSince_body :
    let step : Double := .finite false ⟨1030, by decide⟩ ⟨0, by decide⟩
    let bounds : Bounds :=
      { Bounds.none with atLeast := some (.string "1970-01-01T00:00:00.000Z") }
    let prices : Aggregations :=
      ⟨[.mk "HistogramWeight" (.histogram "weight" step)
        [.leaf "SumPrice" (.metric .sum "price")]]⟩
    let request (kind : RangeKind) : SearchRequest :=
      ⟨some (.range "built" kind bounds), prices, some 10⟩
    (request .date).Arises ∧ (request .term).Arises ∧
      (request .date).toJson = (request .term).toJson ∧
      ofJson? (request .date).toJson = some (request .term) ∧
      (prices.nodes.map Node.name).Nodup := by
  intro step bounds prices request
  let pricesByWeight : Spec :=
    ⟨[.group (.histogram (.property "Weight") step)
      [.metric (.measure .sum (.property "Price") none)]]⟩
  have built : (pricesByWeight.build .standard).outcome = .ok prices := rfl
  have finite : ∀ node, Node.Within prices.nodes node → node.operation.IsFinite := by
    intro node within
    rcases within with member | ⟨first, within⟩
    · obtain rfl := List.mem_singleton.mp member
      trivial
    · obtain rfl := List.mem_singleton.mp first
      rcases within with member | ⟨second, within⟩
      · obtain rfl := List.mem_singleton.mp member
        trivial
      · obtain rfl := List.mem_singleton.mp second
        rcases within with member | ⟨third, _⟩
        · cases member
        · cases third
  have dates : (request .date).Arises := by
    let start : Instant := ⟨0, 0, by decide⟩
    let since := Predicate.compare ⟨.greaterOrEqual, .property "Built", .instant start⟩
    have compiled : (since.compile .standard).outcome =
        .ok (.range "built" .date { Bounds.none with atLeast := some (.string start.text) }) :=
      rfl
    have spelled : start.text = "1970-01-01T00:00:00.000Z" := by decide
    rw [spelled] at compiled
    refine ⟨?_, ⟨.standard, pricesByWeight, built⟩, finite⟩
    rintro _ ⟨⟩
    exact ⟨.standard, _, compiled⟩
  have terms : (request .term).Arises := by
    refine ⟨?_, ⟨.standard, pricesByWeight, built⟩, finite⟩
    rintro _ ⟨⟩
    exact ⟨.standard,
      .compare ⟨.greaterOrEqual, .property "Built", .string "1970-01-01T00:00:00.000Z"⟩, rfl⟩
  obtain ⟨siblings, reading, telling⟩ := body_loses_nothing
  exact ⟨dates, terms, (telling _ _ dates terms).mpr ⟨rfl, rfl, rfl⟩, reading _ dates,
    (siblings _ _ _ built).1⟩

end SearchRequest

end Facet
