import Facet.Proofs.Query.Lowering

/-!
Queries read back from their JSON form.

The JSON form of a query tells everything but the kind of its ranges. In a compiled query the
kind shows in the bounds, since only numeric ranges have numbers there, except that ranges of
dates and of terms both have texts.

Owns:
- queries up to the difference between ranges of dates and ranges of terms;
- the reading of queries, and that it recovers every query whose ranges tell their kinds;
- that the ranges of compiled queries do.
-/

namespace Facet

/-! ### Members -/

@[simp] theorem Members.find?_append (first second : Members) (name : String) :
    find? (first ++ second) name = (find? first name).or (find? second name) :=
  List.lookup_append

/-- A member that may be left out is found under its own name only. -/
@[simp] theorem Bounds.find?_member (name : String) (value : Option Json) (key : String) :
    Members.find? (member name value) key = if key = name then value else .none := by
  cases value with
  | none => simp [member, Members.find?]
  | some value =>
      by_cases same : key = name
      · simp [member, Members.find?, same]
      · simp [member, Members.find?, List.lookup_cons, same, beq_eq_false_iff_ne.mpr same]

private theorem Query.clauseMember_eq_member (name : String) (clauses : List Json) :
    clauseMember name clauses =
      Bounds.member name (if clauses.isEmpty then none else some (.array clauses)) := by
  unfold clauseMember
  split <;> rfl

private theorem Query.minimumMember_eq_member (minimum : Option Nat) :
    minimumMember minimum = Bounds.member "minimum_should_match" (minimum.map .ofNat) := by
  cases minimum <;> rfl

/-! ### Kinds of ranges -/

def Json.isNumber : Json → Bool
  | .number _ => true
  | _ => false

/-- Dates and terms are compared alike: both are texts. -/
def RangeKind.unified : RangeKind → RangeKind
  | .numeric => .numeric
  | .date | .term => .term

namespace Bounds

def values (bounds : Bounds) : List Json :=
  bounds.above.toList ++ bounds.atLeast.toList ++ bounds.below.toList ++ bounds.atMost.toList

/-- The kind that the bounds of a range show: numbers bound numeric ranges. -/
def kind (bounds : Bounds) : RangeKind :=
  if bounds.values.any Json.isNumber then .numeric else .term

def ofMembers (members : Members) : Bounds where
  above := members.find? "gt"
  atLeast := members.find? "gte"
  below := members.find? "lt"
  atMost := members.find? "lte"

private theorem ofMembers_toJson (bounds : Bounds) :
    ofMembers (member "gt" bounds.above ++ member "gte" bounds.atLeast ++
      member "lt" bounds.below ++ member "lte" bounds.atMost) = bounds := by
  simp [ofMembers]

end Bounds

/-- The bounds of the range show its kind, up to dates and terms. -/
def Query.Range.TellsKind (range : Query.Range) : Prop :=
  range.bounds.kind = range.kind.unified

namespace Query

/-! ### Reading -/

mutual

/-- A query with its ranges of dates and of terms alike. -/
def unified : Query → Query
  | .matchAll => .matchAll
  | .term field value => .term field value
  | .range field kind bounds => .range field kind.unified bounds
  | .present field => .present field
  | .bool must should mustNot minimumShouldMatch =>
      .bool (unifiedAll must) (unifiedAll should) (unifiedAll mustNot) minimumShouldMatch
  | .nested path inner => .nested path (unified inner)

def unifiedAll : List Query → List Query
  | [] => []
  | clause :: clauses => unified clause :: unifiedAll clauses

end

mutual

/-- The query of a JSON form. -/
def ofJson? : Json → Option Query
  | .object [("match_all", .object [])] => some .matchAll
  | .object [("term", .object [(field, .object [("value", value)])])] => some (.term field value)
  | .object [("range", .object [(field, .object members)])] =>
      let bounds := Bounds.ofMembers members
      some (.range field bounds.kind bounds)
  | .object [("exists", .object [("field", .string field)])] => some (.present field)
  | .object [("bool", .object members)] => do
      let must ← clausesOf? "must" members
      let should ← clausesOf? "should" members
      let mustNot ← clausesOf? "must_not" members
      let minimum := (Members.find? members "minimum_should_match").bind Json.asNat?
      return .bool must should mustNot minimum
  | .object [("nested", .object [("path", .string path), ("query", inner)])] => do
      return .nested path (← ofJson? inner)
  | _ => none

/-- The clauses under a name; without a member of that name there are none. -/
def clausesOf? (name : String) : List (String × Json) → Option (List Query)
  | [] => some []
  | (other, value) :: rest => if name = other then clausesIn? value else clausesOf? name rest

def clausesIn? : Json → Option (List Query)
  | .array items => ofJsonAll? items
  | _ => none

def ofJsonAll? : List Json → Option (List Query)
  | [] => some []
  | item :: items => do return (← ofJson? item) :: (← ofJsonAll? items)

end

private theorem clausesOf?_eq (name : String) (members : Members) :
    clausesOf? name members =
      match Members.find? members name with
      | none => some []
      | some value => clausesIn? value := by
  induction members with
  | nil => rfl
  | cons member rest inductionHypothesis =>
      obtain ⟨other, value⟩ := member
      rw [clausesOf?, inductionHypothesis, Members.find?, Members.find?, List.lookup_cons]
      by_cases same : name = other
      · simp [same]
      · simp [same, beq_eq_false_iff_ne.mpr same]

/-- The members of a boolean query, in order. -/
def boolMembers (must should mustNot : List Json) (minimum : Option Nat) : Members :=
  clauseMember "must" must ++ clauseMember "should" should ++ clauseMember "must_not" mustNot ++
    minimumMember minimum

/-- Clauses are found under the name of their section; a section without clauses is left out. -/
theorem clausesOf?_boolMembers (must should mustNot : List Json) (minimum : Option Nat) :
    clausesOf? "must" (boolMembers must should mustNot minimum) = ofJsonAll? must ∧
      clausesOf? "should" (boolMembers must should mustNot minimum) = ofJsonAll? should ∧
      clausesOf? "must_not" (boolMembers must should mustNot minimum) = ofJsonAll? mustNot ∧
      (Members.find? (boolMembers must should mustNot minimum) "minimum_should_match").bind
        Json.asNat? = minimum := by
  simp only [clausesOf?_eq, boolMembers, clauseMember_eq_member, minimumMember_eq_member,
    Members.find?_append, Bounds.find?_member]
  refine ⟨?_, ?_, ?_, ?_⟩
  · cases must <;> simp [clausesIn?, ofJsonAll?]
  · cases should <;> simp [clausesIn?, ofJsonAll?]
  · cases mustNot <;> simp [clausesIn?, ofJsonAll?]
  · cases minimum <;> simp [Json.ofNat, Json.asNat?]

mutual

/-- A query whose ranges tell their kinds is read back from its JSON form. -/
theorem ofJson?_toJson : ∀ query : Query, (∀ range ∈ query.ranges, range.TellsKind) →
    ofJson? query.toJson = some query.unified
  | .matchAll, _ | .term _ _, _ | .present _, _ => rfl
  | .range field kind bounds, tell => by
      have told : bounds.kind = kind.unified := tell ⟨field, kind, bounds⟩ List.mem_cons_self
      rw [toJson, Bounds.toJson, ofJson?]
      simp only [Bounds.ofMembers_toJson, told, unified]
  | .bool must should mustNot minimum, tell => by
      simp only [ranges, List.forall_mem_append] at tell
      obtain ⟨mustFound, shouldFound, mustNotFound, minimumFound⟩ :=
        clausesOf?_boolMembers (toJsonAll must) (toJsonAll should) (toJsonAll mustNot) minimum
      rw [toJson, ← boolMembers, ofJson?, mustFound, shouldFound, mustNotFound, minimumFound,
        ofJsonAll?_toJsonAll must tell.1.1, ofJsonAll?_toJsonAll should tell.1.2,
        ofJsonAll?_toJsonAll mustNot tell.2]
      rfl
  | .nested path inner, tell => by
      rw [toJson, ofJson?, ofJson?_toJson inner tell]
      rfl

private theorem ofJsonAll?_toJsonAll : ∀ clauses : List Query,
    (∀ range ∈ rangesAll clauses, range.TellsKind) →
      ofJsonAll? (toJsonAll clauses) = some (unifiedAll clauses)
  | [], _ => rfl
  | clause :: clauses, tell => by
      rw [rangesAll, List.forall_mem_append] at tell
      rw [toJsonAll, ofJsonAll?, ofJson?_toJson clause tell.1, ofJsonAll?_toJsonAll clauses tell.2]
      rfl

end

/-! ### What the body leaves out -/

mutual

/-- Queries that differ in dates and terms alone have one JSON form. -/
theorem toJson_unified : ∀ query : Query, query.unified.toJson = query.toJson
  | .matchAll | .term _ _ | .range _ _ _ | .present _ => rfl
  | .bool must should mustNot _ => by
      rw [unified, toJson, toJson, toJsonAll_unified must, toJsonAll_unified should,
        toJsonAll_unified mustNot]
  | .nested _ inner => by rw [unified, toJson, toJson, toJson_unified inner]

private theorem toJsonAll_unified : ∀ clauses : List Query,
    toJsonAll (unifiedAll clauses) = toJsonAll clauses
  | [] => rfl
  | clause :: clauses => by
      rw [unifiedAll, toJsonAll, toJsonAll, toJson_unified clause, toJsonAll_unified clauses]

end

@[simp] theorem rangesAll_append (first second : List Query) :
    rangesAll (first ++ second) = rangesAll first ++ rangesAll second := by
  induction first with
  | nil => rfl
  | cons clause rest inductionHypothesis =>
      rw [List.cons_append, rangesAll, rangesAll, inductionHypothesis, List.append_assoc]

@[simp] theorem ranges_anyOf (left right : Query) :
    (anyOf [left, right]).ranges = left.ranges ++ right.ranges := by
  simp [anyOf, ranges, rangesAll]

@[simp] theorem ranges_negation (clause : Query) : (negation clause).ranges = clause.ranges := by
  simp [negation, ranges, rangesAll]

@[simp] theorem ranges_single (clause : Query) : (allOf [clause]).ranges = clause.ranges := by
  simp [allOf, ranges, rangesAll]

end Query

/-! ### Compiled queries -/

/-- A row of bounds of one kind: there are some, and they are numbers exactly if the kind is
numeric. -/
structure Bounds.AreOf (kind : RangeKind) (bounds : Bounds) : Prop where
  nonempty : bounds.values ≠ []
  alike : ∀ value ∈ bounds.values, value.isNumber = true ↔ kind = .numeric

namespace Bounds

variable {kind : RangeKind} {first later bounds : Bounds}

private theorem AreOf.kind_eq (areOf : bounds.AreOf kind) : bounds.kind = kind.unified := by
  obtain ⟨value, member⟩ := List.exists_mem_of_ne_nil _ areOf.nonempty
  unfold Bounds.kind
  cases kind with
  | numeric =>
      rw [if_pos (List.any_eq_true.mpr ⟨value, member, (areOf.alike value member).mpr rfl⟩)]
      rfl
  | date | term =>
      rw [if_neg]
      · rfl
      · intro found
        obtain ⟨number, among, isNumber⟩ := List.any_eq_true.mp found
        cases (areOf.alike number among).mp isNumber

theorem mem_orElse {firstBound laterBound : Option Json} {value : Json}
    (member : value ∈ (laterBound <|> firstBound).toList) :
    value ∈ firstBound.toList ∨ value ∈ laterBound.toList := by
  cases laterBound with
  | none => exact .inl member
  | some _ => exact .inr member

theorem mem_orElse_of_later {firstBound laterBound : Option Json} {value : Json}
    (member : value ∈ laterBound.toList) : value ∈ (laterBound <|> firstBound).toList := by
  cases laterBound with
  | none => cases member
  | some _ => exact member

/-- Bounds of one kind merge into bounds of that kind. -/
theorem AreOf.merge (firstAreOf : first.AreOf kind) (laterAreOf : later.AreOf kind) :
    (first.merge later).AreOf kind := by
  constructor
  · obtain ⟨value, member⟩ := List.exists_mem_of_ne_nil _ laterAreOf.nonempty
    refine List.ne_nil_of_mem (a := value) ?_
    simp only [values, Bounds.merge, List.mem_append] at member ⊢
    exact member.imp (.imp (.imp mem_orElse_of_later mem_orElse_of_later) mem_orElse_of_later)
      mem_orElse_of_later
  · intro value member
    have either : value ∈ first.values ∨ value ∈ later.values := by
      simp only [values, Bounds.merge, List.mem_append] at member ⊢
      rcases member with ((bound | bound) | bound) | bound
      all_goals
        rcases mem_orElse bound with earlier | newer
        · simp [earlier]
        · simp [newer]
    rcases either with earlier | newer
    · exact firstAreOf.alike value earlier
    · exact laterAreOf.alike value newer

end Bounds

/-- In a range, numbers are written as numbers, and dates and terms as texts. -/
theorem Literal.isNumber_iff {literal : Literal} {kind : RangeKind} {context : String}
    {json : Json} (kinded : Comparison.rangeKind? literal = some kind)
    (valued : literal.toJson context = .ok json) : json.isNumber = true ↔ kind = .numeric := by
  cases literal with
  | integer value =>
      cases kinded
      cases valued
      exact iff_of_true rfl rfl
  | float value =>
      cases kinded
      cases value with
      | finite _ _ _ =>
          cases valued
          exact iff_of_true rfl rfl
      | _ => cases valued
  | string _ | instant _ =>
      cases kinded
      cases valued
      exact iff_of_false Bool.false_ne_true RangeKind.noConfusion
  | _ => cases kinded

namespace Comparison

variable {scope : Option Path}

/-- A comparison bounds a range of its own kind. -/
theorem bounds_areOf {comparison : Comparison} {range : Query.Range}
    (ranged : comparison.range scope = .ok range) : range.bounds.AreOf range.kind := by
  obtain ⟨wire, kind, json, _, kinded, valued, rfl⟩ := range_eq_ok_iff.mp ranged
  have values : (bound comparison.comparator json).values = [json] := by
    cases comparison.comparator <;> rfl
  constructor
  · rw [values]
    exact List.cons_ne_nil _ _
  · rw [values, List.forall_mem_singleton]
    exact Literal.isNumber_iff kinded valued

/-- Comparisons that merge have ranges of one kind. -/
theorem kind_eq_of_merges {lower upper : Comparison} {lowerRange upperRange : Query.Range}
    (merging : merges scope lower upper = .ok true)
    (lowerRanged : lower.range scope = .ok lowerRange)
    (upperRanged : upper.range scope = .ok upperRange) : lowerRange.kind = upperRange.kind := by
  obtain ⟨opposite, _⟩ := merges_eq_ok_true_iff.mp merging
  obtain ⟨_, _, _, kind, lowerKinded, upperKinded⟩ := areOpposite_iff.mp opposite
  obtain ⟨_, _, _, _, lowerAlso, _, rfl⟩ := range_eq_ok_iff.mp lowerRanged
  obtain ⟨_, _, _, _, upperAlso, _, rfl⟩ := range_eq_ok_iff.mp upperRanged
  rw [lowerKinded] at lowerAlso
  rw [upperKinded] at upperAlso
  cases lowerAlso
  cases upperAlso
  rfl

end Comparison

namespace Predicate

variable {options : CompilerOptions} {scope : Option Path}

/-- The ranges of a conjunction are those of its clauses. -/
theorem Lowered.ranges_query (result : Lowered) :
    result.query.ranges = Query.rangesAll result.clauses := by
  cases result with
  | one query =>
      cases query <;> simp [Lowered.query, Lowered.clauses, Query.isMatchAll, Query.ranges,
        Query.rangesAll]
  | chain clauses =>
      cases clauses with
      | nil => rfl
      | cons first rest => simp [Lowered.query, Lowered.clauses, Query.allOf, Query.ranges,
          Query.rangesAll]

theorem ranges_of_lowerEquals {field : FieldExpr} {value : Literal} {query : Query}
    (lowers : lowerEquals scope field value = .ok query) : query.ranges = [] := by
  simp only [lowerEquals, Outcome.bind_eq_ok] at lowers
  obtain ⟨_, _, rest⟩ := lowers
  split at rest
  · cases rest
    rfl
  · obtain ⟨_, _, made⟩ := Outcome.bind_eq_ok.mp rest
    cases made
    rfl

/-- Every range of a query that is lowered tells its kind. -/
theorem tellsKind_of_lowers {predicate : Predicate} {result : Lowered}
    (lowers : Lowers options scope predicate result) :
    ∀ range ∈ result.query.ranges, range.TellsKind := by
  induction lowers with
  | merged pair lowerRanged upperRanged =>
      obtain ⟨rfl, rfl, _, merging⟩ := mergedPair_eq_some_iff.mp pair
      -- the range has the kind of the lower comparison and the bounds of both
      have kinds := Comparison.kind_eq_of_merges merging lowerRanged upperRanged
      have upperAreOf := Comparison.bounds_areOf upperRanged
      rw [← kinds] at upperAreOf
      rw [Lowered.query_one, Query.ranges, List.forall_mem_singleton]
      exact ((Comparison.bounds_areOf lowerRanged).merge upperAreOf).kind_eq
  | chain _ _ _ _ _ leftHypothesis rightHypothesis =>
      rw [Lowered.ranges_query] at leftHypothesis rightHypothesis ⊢
      rw [Lowered.clauses, Query.rangesAll_append, List.forall_mem_append]
      exact ⟨leftHypothesis, rightHypothesis⟩
  | or _ _ leftHypothesis rightHypothesis =>
      rw [Lowered.query_one, Query.ranges_anyOf, List.forall_mem_append]
      exact ⟨leftHypothesis, rightHypothesis⟩
  | not _ innerHypothesis | inside _ _ _ innerHypothesis => simpa using innerHypothesis
  | nested _ _ _ innerHypothesis => exact innerHypothesis
  | compare lowers =>
      rcases Comparison.lower_eq_ok_iff.mp lowers with ⟨_, rfl, _⟩ | ⟨_, range, ranged, rfl⟩
      · exact nofun
      · rw [Lowered.query_one, Query.ranges, List.forall_mem_singleton]
        exact (Comparison.bounds_areOf ranged).kind_eq
  | equals lowers =>
      rw [Lowered.query_one, ranges_of_lowerEquals lowers]
      exact nofun
  | notEquals _ lowers =>
      simp [ranges_of_lowerEquals lowers]
  | notNull _ _ | flag _ | present _ | holds _ _ =>
      intro range member
      cases member

/-- Every compiled query is read back from its JSON form. -/
theorem ofJson?_of_compile {predicate : Predicate} {query : Query}
    (compiled : (predicate.compile options).outcome = .ok query) :
    Query.ofJson? query.toJson = some query.unified := by
  obtain ⟨_, lowers, rfl⟩ := lowers_of_compile compiled
  exact Query.ofJson?_toJson _ (tellsKind_of_lowers lowers)

end Predicate

end Facet
