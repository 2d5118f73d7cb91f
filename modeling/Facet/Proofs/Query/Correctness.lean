import Facet.Proofs.Predicate.OneValue

/-!
What compiled queries mean.

A compiled query holds of exactly the documents that satisfy its predicate when merged pairs
speak of one value. It agrees with the plain reading, on a document and in every part, exactly
if the document does not divide a merged pair between two values.

Owns:
- the meaning of ranges, of merged ranges, and of the clauses that a predicate contributes to a
  conjunction;
- the meaning of every lowered predicate;
- a document with two values that a merged pair loses.
-/

namespace Facet

/-! ### Ranges -/

/-- A single bound admits what the comparator says. -/
theorem Bounds.admits_bound (order : Order) (kind : RangeKind) (comparator : Comparator)
    (json value : Json) :
    Bounds.admits order kind (Comparison.bound comparator json) value =
      order kind comparator value json := by
  cases comparator <;>
    simp [Bounds.admits, Bounds.admitsBound, Comparison.bound, Bounds.none]

/-- Two bounds from opposite sides keep out of each other's way when they merge. -/
theorem Bounds.admits_merge {lower upper : Comparator} (sides : lower.isLower ≠ upper.isLower)
    (order : Order) (kind : RangeKind) (lowerJson upperJson value : Json) :
    Bounds.admits order kind
        ((Comparison.bound lower lowerJson).merge (Comparison.bound upper upperJson)) value =
      (order kind lower value lowerJson && order kind upper value upperJson) := by
  cases lower <;> cases upper <;>
    simp_all [Comparator.isLower, Bounds.admits, Bounds.admitsBound, Comparison.bound,
      Bounds.none, Bounds.merge, Bool.and_comm]

namespace Comparison

/-- A lowered comparison holds where the comparison is met. -/
theorem holds_lower {order : Order} {scope : Option Path} {comparison : Comparison}
    {query : Query} (lowers : comparison.lower scope = .ok query) (document : Document) :
    query.holds order document = comparison.isMet order scope document := by
  rcases lower_eq_ok_iff.mp lowers with ⟨null, rfl, _⟩ | ⟨valued, range, ranged, rfl⟩
  · simp [Query.holds, isMet, null]
  · obtain ⟨wire, kind, json, resolved, kinded, jsoned, rfl⟩ := range_eq_ok_iff.mp ranged
    rw [isMet_eq_any valued resolved, Query.holds]
    congr 1
    funext value
    rw [Bounds.admits_bound, admits_eq kinded jsoned]

/-- A merged range holds where one value meets both comparisons. -/
theorem holds_merged {order : Order} {scope : Option Path} {lower upper : Comparison}
    {lowerRange upperRange : Query.Range} (merges : merges scope lower upper = .ok true)
    (lowerRanged : lower.range scope = .ok lowerRange)
    (upperRanged : upper.range scope = .ok upperRange) (document : Document) :
    (Query.range lowerRange.field lowerRange.kind
        (lowerRange.bounds.merge upperRange.bounds)).holds order document =
      areMetByOne order scope document lower upper := by
  obtain ⟨opposite, _⟩ := merges_eq_ok_true_iff.mp merges
  obtain ⟨_, _, sides, common, lowerCommon, upperCommon⟩ := areOpposite_iff.mp opposite
  obtain ⟨wire, kind, lowerJson, resolved, lowerKinded, lowerJsoned, rfl⟩ :=
    range_eq_ok_iff.mp lowerRanged
  obtain ⟨_, upperKind, upperJson, _, upperKinded, upperJsoned, rfl⟩ :=
    range_eq_ok_iff.mp upperRanged
  have sameKind : upperKind = kind := by
    rw [lowerCommon] at lowerKinded
    rw [upperCommon] at upperKinded
    exact (Option.some.inj upperKinded).symm.trans (Option.some.inj lowerKinded)
  subst sameKind
  rw [areMetByOne_eq_any resolved, Query.holds]
  congr 1
  funext value
  rw [Bounds.admits_merge sides, admits_eq lowerKinded lowerJsoned,
    admits_eq upperKinded upperJsoned]

end Comparison

/-! ### Clauses -/

namespace Predicate

/-- The query of what a predicate contributes holds exactly if its clauses do. -/
theorem Lowered.holds_query_iff (order : Order) (document : Document) (result : Lowered) :
    result.query.holds order document = true ↔
      ∀ clause ∈ result.clauses, clause.holds order document = true := by
  cases result with
  | one query =>
      cases query <;> simp [Lowered.query, Lowered.clauses, Query.isMatchAll, Query.holds]
  | chain clauses =>
      cases clauses with
      | nil => simp [Lowered.query, Lowered.clauses, Query.holds]
      | cons first rest => exact Query.holds_allOf order document (first :: rest)

/-- A chain holds exactly if both of the sides do that it is made of. -/
theorem Lowered.holds_chain (order : Order) (document : Document) (left right : Lowered) :
    (Lowered.chain (left.clauses ++ right.clauses)).query.holds order document =
      (left.query.holds order document && right.query.holds order document) := by
  rw [Bool.eq_iff_iff, Bool.and_eq_true, holds_query_iff, holds_query_iff, holds_query_iff]
  simp only [Lowered.clauses, List.forall_mem_append]

/-- An equality holds where the field has the value, or, with null, where it has none. -/
theorem holds_lowerEquals {order : Order} {scope : Option Path} {field : FieldExpr}
    {value : Literal} {query : Query} (lowers : lowerEquals scope field value = .ok query)
    (document : Document) :
    query.holds order document = isEqual scope document field value := by
  simp only [lowerEquals, Outcome.bind_eq_ok] at lowers
  obtain ⟨wire, resolved, rest⟩ := lowers
  cases null : value.isNull with
  | true =>
      simp only [null, if_true, Outcome.pure_eq_ok] at rest
      subst rest
      simp [Query.holds, isEqual, resolved, null]
  | false =>
      simp only [null, Bool.false_eq_true, if_false, Outcome.bind_eq_ok,
        Outcome.pure_eq_ok] at rest
      obtain ⟨json, jsoned, rfl⟩ := rest
      simp [Query.holds, isEqual, resolved, null, Literal.toJson_of_ok jsoned ""]

/-! ### Predicates -/

/-- Every lowered predicate holds of exactly the documents that satisfy it, when merged pairs
speak of one value. -/
theorem holds_of_lowers {options : CompilerOptions} {scope : Option Path}
    {predicate : Predicate} {result : Lowered} (lowers : Lowers options scope predicate result)
    (order : Order) (document : Document) :
    result.query.holds order document =
      predicate.isMetMerged options order scope document := by
  induction lowers generalizing document with
  | merged pair lowerRanged upperRanged =>
      obtain ⟨rfl, rfl, _, merges⟩ := mergedPair_eq_some_iff.mp pair
      simp only [isMetMerged, pair]
      exact Comparison.holds_merged merges lowerRanged upperRanged document
  | chain pair _ _ _ _ leftHypothesis rightHypothesis =>
      rw [Lowered.holds_chain, leftHypothesis, rightHypothesis]
      simp only [isMetMerged, pair]
  | or _ _ leftHypothesis rightHypothesis =>
      simp [isMetMerged, leftHypothesis, rightHypothesis]
  | not _ innerHypothesis => simp [isMetMerged, innerHypothesis]
  | compare lowers => exact Comparison.holds_lower lowers document
  | equals lowers => exact holds_lowerEquals lowers document
  | notNull null resolved =>
      simp [Query.holds, isMetMerged, isMet, isEqual, resolved, null]
  | notEquals _ lowers =>
      rw [Lowered.query_one, Query.holds_negation, holds_lowerEquals lowers]
      rfl
  | flag resolved | holds _ resolved =>
      simp [Query.flag, Query.holds, isMetMerged, isMet, isTrue, resolved]
  | present resolved => simp [Query.holds, isMetMerged, isMet, resolved]
  | nested resolved isNested _ innerHypothesis =>
      simp [Query.holds, isMetMerged, resolved, isNested, innerHypothesis]
  | inside resolved notNested _ innerHypothesis =>
      rw [Bool.eq_iff_iff, Lowered.query_one, Query.holds_allOf]
      simp [isMetMerged, resolved, notNested, innerHypothesis]

/-- If a predicate is lowered, its query reads it as the predicate itself is read. -/
def Agrees (options : CompilerOptions) (order : Order) (scope : Option Path)
    (document : Document) (predicate : Predicate) : Prop :=
  ∀ query, (predicate.lower options scope).outcome = .ok query →
    query.holds order document = predicate.isMet options order scope document

private theorem agrees_iff_of_lowers {options : CompilerOptions} {order : Order}
    {scope : Option Path} {document : Document} {predicate : Predicate} {result : Lowered}
    (lowers : Lowers options scope predicate result) :
    Agrees options order scope document predicate ↔
      predicate.isMetMerged options order scope document =
        predicate.isMet options order scope document := by
  constructor
  · intro agrees
    rw [← holds_of_lowers lowers]
    exact agrees _ (lower_eq_ok_iff.mpr ⟨result, lowers, rfl⟩)
  · intro same query lowered
    obtain ⟨other, otherLowers, rfl⟩ := lower_eq_ok_iff.mp lowered
    rw [holds_of_lowers otherLowers, same]

/-- The query of a merged pair agrees with the pair only if no two values divide it. -/
theorem isUndivided_of_agrees {options : CompilerOptions} {order : Order}
    {scope : Option Path} {document : Document} {predicate : Predicate} {result : Lowered}
    (lowers : Lowers options scope predicate result)
    (agrees : Agrees options order scope document predicate) :
    IsUndivided options order scope document predicate := by
  have same := (agrees_iff_of_lowers lowers).mp agrees
  cases predicate with
  | and left right =>
      simp only [IsUndivided]
      split
      · next lower upper pair =>
          obtain ⟨rfl, rfl, _, _⟩ := mergedPair_eq_some_iff.mp pair
          simp only [isMetMerged, pair, isMet] at same
          intro lowerMet upperMet
          rw [same, lowerMet, upperMet]
          rfl
      · trivial
  | _ => trivial

/-- All parts of a lowered predicate are lowered. -/
theorem lowers_everywhere {options : CompilerOptions} {scope : Option Path}
    {predicate : Predicate} {result : Lowered} (lowers : Lowers options scope predicate result)
    (document : Document) :
    AtEveryPart options (fun scope _ part => ∃ result, Lowers options scope part result) scope
      document predicate := by
  induction lowers generalizing document with
  | merged pair lowerRanged upperRanged =>
      refine ⟨⟨_, .merged pair lowerRanged upperRanged⟩, ?_⟩
      simp only [pair]
  | chain pair leftExamined rightExamined leftLowers rightLowers leftHypothesis
      rightHypothesis =>
      refine ⟨⟨_, .chain pair leftExamined rightExamined leftLowers rightLowers⟩, ?_⟩
      simp only [pair]
      exact ⟨leftHypothesis document, rightHypothesis document⟩
  | or leftLowers rightLowers leftHypothesis rightHypothesis =>
      exact ⟨⟨_, .or leftLowers rightLowers⟩, leftHypothesis document, rightHypothesis document⟩
  | not innerLowers innerHypothesis => exact ⟨⟨_, .not innerLowers⟩, innerHypothesis document⟩
  | compare lowers => exact ⟨_, .compare lowers⟩
  | equals lowers => exact ⟨_, .equals lowers⟩
  | notNull null resolved => exact ⟨_, .notNull null resolved⟩
  | notEquals valued lowers => exact ⟨_, .notEquals valued lowers⟩
  | flag resolved => exact ⟨_, .flag resolved⟩
  | present resolved => exact ⟨_, .present resolved⟩
  | holds named resolved => exact ⟨_, .holds named resolved⟩
  | nested resolved isNested innerLowers innerHypothesis =>
      refine ⟨⟨_, .nested resolved isNested innerLowers⟩, ?_⟩
      simp only [resolved, isNested, if_true]
      exact fun element _ => innerHypothesis element
  | inside resolved notNested innerLowers innerHypothesis =>
      refine ⟨⟨_, .inside resolved notNested innerLowers⟩, ?_⟩
      simp only [resolved, notNested, Bool.false_eq_true, if_false]
      exact innerHypothesis document

/-- All parts of a lowered predicate agree with their queries exactly if no pair is divided. -/
theorem agrees_everywhere_iff {options : CompilerOptions} {order : Order}
    {scope : Option Path} {document : Document} {predicate : Predicate} {result : Lowered}
    (lowers : Lowers options scope predicate result) :
    AtEveryPart options (Agrees options order) scope document predicate ↔
      AtEveryPart options (IsUndivided options order) scope document predicate := by
  have lowered := lowers_everywhere lowers document
  constructor
  · intro agrees
    refine lowered.imp (fun scope document part parts agreeing => ?_) agrees
    obtain ⟨_, partLowers⟩ := parts.whole
    exact isUndivided_of_agrees partLowers agreeing.whole
  · intro undivided
    refine lowered.imp (fun scope document part parts undividing => ?_) undivided
    obtain ⟨_, partLowers⟩ := parts.whole
    exact (agrees_iff_of_lowers partLowers).mpr (isMetMerged_eq_isMet undividing)

/-- **What a compiled query means.** It holds of exactly the documents that satisfy its
predicate when merged pairs speak of one value. It reads the predicate as such, with all of its
parts, exactly if the document divides no merged pair between two values. No document does so
without merging, and no document with single values does. -/
theorem compile_holds_iff_isMet {options : CompilerOptions} {predicate : Predicate}
    {query : Query} (compiled : (predicate.compile options).outcome = .ok query) (order : Order)
    (document : Document) :
    query.holds order document = predicate.isMetMerged options order none document ∧
      (AtEveryPart options (Agrees options order) none document predicate ↔
        AtEveryPart options (IsUndivided options order) none document predicate) ∧
      (AtEveryPart options (IsUndivided options order) none document predicate →
        query.holds order document = predicate.isMet options order none document) ∧
      (options.mergeRanges = false ∨ document.SingleValued →
        query.holds order document = predicate.isMet options order none document) := by
  obtain ⟨result, lowers, rfl⟩ := lowers_of_compile compiled
  have agrees : AtEveryPart options (IsUndivided options order) none document predicate →
      result.query.holds order document = predicate.isMet options order none document := by
    intro undivided
    rw [holds_of_lowers lowers, isMetMerged_eq_isMet undivided]
  refine ⟨holds_of_lowers lowers order document, agrees_everywhere_iff lowers, agrees, ?_⟩
  rintro (disabled | single)
  · exact agrees (undivided_of_not_mergeRanges disabled order none document predicate)
  · exact agrees (undivided_of_singleValued single options order none predicate)

/-! ### A pair, divided and undivided -/

/-- Integers compare by size, and nothing else compares. -/
def integerOrder : Order := fun _ comparator value bound =>
  match value.asInt?, bound.asInt? with
  | some value, some bound =>
      match comparator with
      | .less => value < bound
      | .lessOrEqual => value ≤ bound
      | .greater => bound < value
      | .greaterOrEqual => bound ≤ value
  | _, _ => false

/-- A document with integers at one path. -/
def withIntegers (path : String) (values : List Int) : Document :=
  .mk (fun other => if other = path then values.map Json.ofInt else []) fun _ => []

/-- A field that lies between two and six. -/
def betweenTwoAndSix (field : FieldExpr) : Predicate :=
  .and (.compare ⟨.greater, field, .integer 2⟩) (.compare ⟨.less, field, .integer 6⟩)

/-- The range that the two bounds merge into. -/
def rangeFromTwoToSix (wire : String) : Query :=
  .range wire .numeric ⟨some (.ofInt 2), none, some (.ofInt 6), none⟩

theorem singleValued_withIntegers (path : String) (value : Int) :
    (withIntegers path [value]).SingleValued := by
  refine ⟨fun other => ?_, fun other element member => ?_⟩
  · simp only [withIntegers, Document.values]
    split <;> simp
  · simp [withIntegers, Document.elements] at member

/-- Of two passengers neither is between two and six years old, although one is older than two
and the other is younger than six. Each element has one age, so its pair is not divided. -/
theorem compile_holds_iff_isMet_of_passengers :
    let options := CompilerOptions.standard.addNested "passengers"
    let predicate := Predicate.any (.property "Passengers") (betweenTwoAndSix (.property "Age"))
    let query := Query.nested "passengers" (rangeFromTwoToSix "passengers.age")
    let document := Document.mk (fun _ => []) fun path =>
      if path = "passengers" then
        [withIntegers "passengers.age" [1], withIntegers "passengers.age" [10]]
      else []
    (predicate.compile options).outcome = .ok query ∧ document.SingleValued ∧
      query.holds integerOrder document = predicate.isMet options integerOrder none document := by
  intro options predicate query document
  have compiled : (predicate.compile options).outcome = .ok query := rfl
  have single : document.SingleValued := by
    refine ⟨fun path => by simp [document, Document.values], fun path element member => ?_⟩
    simp only [document, Document.elements] at member
    split at member
    · simp only [List.mem_cons, List.not_mem_nil, or_false] at member
      rcases member with rfl | rfl <;> exact singleValued_withIntegers _ _
    · simp at member
  exact ⟨compiled, single,
    (compile_holds_iff_isMet compiled integerOrder document).2.2.2 (Or.inr single)⟩

/-- A document whose field has the values one and ten satisfies both of two bounds, but not
the range that they merge into. -/
theorem two_values_divide_merged_pair :
    let predicate := betweenTwoAndSix (.property "X")
    let document := withIntegers "x" [1, 10]
    (predicate.compile .standard).outcome = .ok (rangeFromTwoToSix "x") ∧
      (rangeFromTwoToSix "x").holds integerOrder document = false ∧
      predicate.isMet .standard integerOrder none document = true :=
  ⟨rfl, rfl, rfl⟩

end Predicate

end Facet
