import Facet.Proofs.Outcome
import Facet.Query.Compile

/-!
How predicates are lowered, as derivations.

Owns:
- what it takes for two comparisons to merge, and the range that a comparison has;
- `Predicate.Lowers`, one rule for each way in which a predicate is lowered;
- that whatever is lowered or compiled has a derivation.

Does not own: the events that are reported on the way, and which error is reported first.
-/

namespace Facet

/-! ### Literals and comparisons -/

/-- Whether a literal has a value does not depend on where it stands, and nor does the value. -/
theorem Literal.toJson_of_ok {literal : Literal} {context : String} {json : Json}
    (succeeds : literal.toJson context = .ok json) (other : String) :
    literal.toJson other = .ok json := by
  cases literal with
  | float value => cases value <;> simp_all [Literal.toJson]
  | _ => simp_all [Literal.toJson]

namespace Comparison

/-- The parts of the range of a comparison. -/
theorem range_eq_ok_iff {scope : Option Path} {comparison : Comparison} {found : Query.Range} :
    comparison.range scope = .ok found ↔
      ∃ wire kind json, comparison.field.wireWithin scope = .ok wire ∧
        rangeKind? comparison.value = some kind ∧
        comparison.value.toJson s!"range on '{wire}'" = .ok json ∧
        found = ⟨wire, kind, bound comparison.comparator json⟩ := by
  unfold range
  rw [Outcome.bind_eq_ok]
  constructor
  · rintro ⟨wire, resolved, rest⟩
    cases ranged : rangeKind? comparison.value with
    | none => simp [ranged] at rest
    | some kind =>
        simp only [ranged, Outcome.bind_eq_ok, Outcome.pure_eq_ok] at rest
        obtain ⟨json, valued, same⟩ := rest
        exact ⟨wire, kind, json, resolved, rfl, valued, same.symm⟩
  · rintro ⟨wire, kind, json, resolved, ranged, valued, rfl⟩
    refine ⟨wire, resolved, ?_⟩
    simp only [ranged, Outcome.bind_eq_ok, Outcome.pure_eq_ok]
    exact ⟨json, valued, rfl⟩

/-- A comparison is lowered to its range, or, with null, to the query that matches all. -/
theorem lower_eq_ok_iff {scope : Option Path} {comparison : Comparison} {query : Query} :
    comparison.lower scope = .ok query ↔
      (comparison.value.isNull = true ∧ query = .matchAll ∧
          ∃ wire, comparison.field.wireWithin scope = .ok wire) ∨
        (comparison.value.isNull = false ∧
          ∃ range, comparison.range scope = .ok range ∧
            query = .range range.field range.kind range.bounds) := by
  unfold lower
  cases null : comparison.value.isNull with
  | true =>
      simp only [if_true, Outcome.bind_eq_ok, Outcome.pure_eq_ok]
      constructor
      · rintro ⟨wire, resolved, same⟩
        exact Or.inl ⟨trivial, same.symm, wire, resolved⟩
      · rintro (⟨_, rfl, wire, resolved⟩ | ⟨absurdity, _⟩)
        · exact ⟨wire, resolved, rfl⟩
        · cases absurdity
  | false =>
      simp only [Bool.false_eq_true, if_false, Outcome.bind_eq_ok, Outcome.pure_eq_ok]
      constructor
      · rintro ⟨range, ranged, same⟩
        exact Or.inr ⟨trivial, range, ranged, same.symm⟩
      · rintro (⟨absurdity, _⟩ | ⟨_, range, ranged, rfl⟩)
        · exact absurdity.elim
        · exact ⟨range, ranged, rfl⟩

/-- Comparisons that merge are opposite and have one field. -/
theorem merges_eq_ok_true_iff {scope : Option Path} {left right : Comparison} :
    merges scope left right = .ok true ↔
      areOpposite left right = true ∧
        ∃ wire, left.field.wireWithin scope = .ok wire ∧
          right.field.wireWithin scope = .ok wire := by
  unfold merges
  cases opposite : areOpposite left right with
  | false => simp
  | true =>
      simp only [if_true, Outcome.bind_eq_ok, Outcome.pure_eq_ok, beq_iff_eq, true_and]
      constructor
      · rintro ⟨wire, resolved, _, also, rfl⟩
        exact ⟨wire, resolved, also⟩
      · rintro ⟨wire, resolved, also⟩
        exact ⟨wire, resolved, wire, also, rfl⟩

/-- What opposite comparisons have in common, and in what they differ. -/
theorem areOpposite_iff {left right : Comparison} :
    areOpposite left right = true ↔
      left.value.isNull = false ∧ right.value.isNull = false ∧
        left.comparator.isLower ≠ right.comparator.isLower ∧
        ∃ kind, rangeKind? left.value = some kind ∧ rangeKind? right.value = some kind := by
  unfold areOpposite
  cases leftKind : rangeKind? left.value with
  | none => simp
  | some kind =>
      simp only [Bool.and_eq_true, Bool.not_eq_true', bne_iff_ne, beq_iff_eq,
        Option.isSome_some, Option.some.injEq, exists_eq_left', and_assoc, true_and]
      constructor
      · rintro ⟨leftValue, rightValue, sides, rightKind⟩
        exact ⟨leftValue, rightValue, sides, rightKind.symm⟩
      · rintro ⟨leftValue, rightValue, sides, rightKind⟩
        exact ⟨leftValue, rightValue, sides, rightKind.symm⟩

end Comparison

namespace Predicate

variable {options : CompilerOptions} {scope : Option Path}

/-- Only two comparisons merge, and only if the options say so. -/
theorem mergedPair_eq_some_iff {left right : Predicate} {lower upper : Comparison} :
    mergedPair options scope left right = .ok (some (lower, upper)) ↔
      left = .compare lower ∧ right = .compare upper ∧ options.mergeRanges = true ∧
        Comparison.merges scope lower upper = .ok true := by
  constructor
  · intro merging
    unfold mergedPair at merging
    split at merging
    · next leftSide rightSide =>
        cases enabled : options.mergeRanges with
        | false => simp [enabled] at merging
        | true =>
            simp only [enabled, if_true, Outcome.bind_eq_ok, Outcome.pure_eq_ok] at merging
            obtain ⟨merges, succeeds, found⟩ := merging
            cases merges with
            | false => simp at found
            | true =>
                simp only [if_true, Option.some.injEq, Prod.mk.injEq] at found
                obtain ⟨rfl, rfl⟩ := found
                exact ⟨rfl, rfl, rfl, succeeds⟩
    · simp at merging
  · rintro ⟨rfl, rfl, enabled, merges⟩
    simp only [mergedPair, enabled, if_true, merges, Outcome.ok_bind]
    rfl

/-! ### Derivations -/

@[simp] theorem Lowered.query_one (query : Query) : (Lowered.one query).query = query := rfl

/-- How a predicate is lowered below a scope. There is one rule for each kind of predicate,
and for conjunctions, comparisons with null and collections there are two. -/
inductive Lowers (options : CompilerOptions) : Option Path → Predicate → Lowered → Prop where
  | merged {scope : Option Path} {left right : Predicate} {lower upper : Comparison}
      {lowerRange upperRange : Query.Range}
      (pair : mergedPair options scope left right = .ok (some (lower, upper)))
      (lowerRanged : lower.range scope = .ok lowerRange)
      (upperRanged : upper.range scope = .ok upperRange) :
      Lowers options scope (.and left right)
        (.one (.range lowerRange.field lowerRange.kind
          (lowerRange.bounds.merge upperRange.bounds)))
  | chain {scope : Option Path} {left right : Predicate} {leftLowered rightLowered : Lowered}
      (pair : mergedPair options scope left right = .ok none)
      (leftExamined : examine options scope left = .ok ())
      (rightExamined : examine options scope right = .ok ())
      (leftLowers : Lowers options scope left leftLowered)
      (rightLowers : Lowers options scope right rightLowered) :
      Lowers options scope (.and left right)
        (.chain (leftLowered.clauses ++ rightLowered.clauses))
  | or {scope : Option Path} {left right : Predicate} {leftLowered rightLowered : Lowered}
      (leftLowers : Lowers options scope left leftLowered)
      (rightLowers : Lowers options scope right rightLowered) :
      Lowers options scope (.or left right)
        (.one (.anyOf [leftLowered.query, rightLowered.query]))
  | not {scope : Option Path} {inner : Predicate} {innerLowered : Lowered}
      (innerLowers : Lowers options scope inner innerLowered) :
      Lowers options scope (.not inner) (.one (.negation innerLowered.query))
  | compare {scope : Option Path} {comparison : Comparison} {query : Query}
      (lowers : comparison.lower scope = .ok query) :
      Lowers options scope (.compare comparison) (.one query)
  | equals {scope : Option Path} {field : FieldExpr} {value : Literal} {query : Query}
      (lowers : lowerEquals scope field value = .ok query) :
      Lowers options scope (.equals field value) (.one query)
  | notNull {scope : Option Path} {field : FieldExpr} {value : Literal} {wire : String}
      (null : value.isNull = true) (resolved : field.wireWithin scope = .ok wire) :
      Lowers options scope (.notEquals field value) (.one (.present wire))
  | notEquals {scope : Option Path} {field : FieldExpr} {value : Literal} {query : Query}
      (valued : value.isNull = false) (lowers : lowerEquals scope field value = .ok query) :
      Lowers options scope (.notEquals field value) (.one (.negation query))
  | flag {scope : Option Path} {field : FieldExpr} {wire : String}
      (resolved : field.wireWithin scope = .ok wire) :
      Lowers options scope (.flag field) (.one (.flag wire))
  | present {scope : Option Path} {field : FieldExpr} {wire : String}
      (resolved : field.wireWithin scope = .ok wire) :
      Lowers options scope (.present field) (.one (.present wire))
  | holds {scope : Option Path} {field : FieldExpr} {wire : String}
      (named : field.isNamed = true) (resolved : field.wireWithin scope = .ok wire) :
      Lowers options scope (.holds field) (.one (.flag wire))
  | nested {scope : Option Path} {collection : FieldExpr} {inner : Predicate} {path : Path}
      {innerLowered : Lowered}
      (resolved : collection.resolveWithin scope = .ok path)
      (isNested : options.isNested path.wire = true)
      (innerLowers : Lowers options (some path) inner innerLowered) :
      Lowers options scope (.any collection inner)
        (.one (.nested path.wire innerLowered.query))
  | inside {scope : Option Path} {collection : FieldExpr} {inner : Predicate} {path : Path}
      {innerLowered : Lowered}
      (resolved : collection.resolveWithin scope = .ok path)
      (notNested : options.isNested path.wire = false)
      (innerLowers : Lowers options (some path) inner innerLowered) :
      Lowers options scope (.any collection inner) (.one (.allOf [innerLowered.query]))

/-- Every predicate that is lowered has a derivation. -/
theorem lowers_of_lowered {predicate : Predicate} {result : Lowered}
    (succeeds : (lowered options scope predicate).outcome = .ok result) :
    Lowers options scope predicate result := by
  induction predicate generalizing scope result with
  | and left right leftHypothesis rightHypothesis =>
      simp only [lowered, Traced.bind_outcome_eq_ok, Traced.outcome_liftM] at succeeds
      obtain ⟨pair, pairFound, rest⟩ := succeeds
      cases pair with
      | none =>
          simp only [Traced.bind_outcome_eq_ok, Traced.outcome_liftM, Traced.outcome_pure,
            Except.ok.injEq] at rest
          obtain ⟨_, leftExamined, _, rightExamined, leftLowered, leftSucceeds, rightLowered,
            rightSucceeds, rfl⟩ := rest
          exact .chain pairFound leftExamined rightExamined (leftHypothesis leftSucceeds)
            (rightHypothesis rightSucceeds)
      | some comparisons =>
          obtain ⟨lower, upper⟩ := comparisons
          simp only [Comparison.merged, Traced.bind_outcome_eq_ok, Traced.outcome_liftM,
            Traced.outcome_pure, Traced.outcome_emit, Except.ok.injEq] at rest
          obtain ⟨_, ⟨lowerRange, lowerRanged, upperRange, upperRanged, _, _, rfl⟩, rfl⟩ := rest
          exact .merged pairFound lowerRanged upperRanged
  | or left right leftHypothesis rightHypothesis =>
      obtain ⟨leftLowered, leftSucceeds, rest⟩ := Traced.bind_outcome_eq_ok.mp succeeds
      obtain ⟨rightLowered, rightSucceeds, rfl⟩ := Traced.bind_pure_outcome_eq_ok.mp rest
      exact .or (leftHypothesis leftSucceeds) (rightHypothesis rightSucceeds)
  | not inner innerHypothesis =>
      obtain ⟨innerLowered, innerSucceeds, rfl⟩ := Traced.bind_pure_outcome_eq_ok.mp succeeds
      exact .not (innerHypothesis innerSucceeds)
  | compare comparison =>
      obtain ⟨query, lowers, rfl⟩ := Traced.bind_pure_outcome_eq_ok.mp succeeds
      exact .compare lowers
  | equals field value =>
      obtain ⟨query, lowers, rfl⟩ := Traced.bind_pure_outcome_eq_ok.mp succeeds
      exact .equals lowers
  | notEquals field value =>
      cases null : value.isNull with
      | true =>
          rw [lowered, null, if_pos rfl] at succeeds
          obtain ⟨wire, resolved, rfl⟩ := Traced.bind_pure_outcome_eq_ok.mp succeeds
          exact .notNull null resolved
      | false =>
          rw [lowered, null, if_neg Bool.false_ne_true] at succeeds
          obtain ⟨query, lowers, rfl⟩ := Traced.bind_pure_outcome_eq_ok.mp succeeds
          exact .notEquals null lowers
  | flag field =>
      obtain ⟨wire, resolved, rfl⟩ := Traced.bind_pure_outcome_eq_ok.mp succeeds
      exact .flag resolved
  | present field =>
      obtain ⟨wire, resolved, rfl⟩ := Traced.bind_pure_outcome_eq_ok.mp succeeds
      exact .present resolved
  | holds field =>
      cases named : field.isNamed with
      | true =>
          rw [lowered, named, if_pos rfl] at succeeds
          obtain ⟨wire, resolved, rfl⟩ := Traced.bind_pure_outcome_eq_ok.mp succeeds
          exact .holds named resolved
      | false => simp [lowered, named] at succeeds
  | any collection inner innerHypothesis =>
      obtain ⟨path, resolved, rest⟩ := Traced.bind_outcome_eq_ok.mp succeeds
      obtain ⟨innerLowered, innerSucceeds, rest⟩ := Traced.bind_outcome_eq_ok.mp rest
      cases isNested : options.isNested path.wire with
      | true =>
          rw [isNested, if_pos rfl] at rest
          cases rest
          exact .nested resolved isNested (innerHypothesis innerSucceeds)
      | false =>
          rw [isNested, if_neg Bool.false_ne_true] at rest
          cases rest
          exact .inside resolved isNested (innerHypothesis innerSucceeds)
  | call target method => simp [lowered] at succeeds

/-- Every derivation is followed by lowering. -/
theorem lowered_of_lowers {predicate : Predicate} {result : Lowered}
    (lowers : Lowers options scope predicate result) :
    (lowered options scope predicate).outcome = .ok result := by
  induction lowers with
  | merged pair lowerRanged upperRanged =>
      simp [lowered, Comparison.merged, pair, lowerRanged, upperRanged]
  | chain pair leftExamined rightExamined _ _ leftHypothesis rightHypothesis =>
      simp [lowered, pair, leftExamined, rightExamined, leftHypothesis, rightHypothesis]
  | or _ _ leftHypothesis rightHypothesis => simp [lowered, leftHypothesis, rightHypothesis]
  | not _ innerHypothesis => simp [lowered, innerHypothesis]
  | compare lowers | equals lowers => simp [lowered, lowers]
  | notNull null resolved => simp [lowered, null, resolved]
  | notEquals valued lowers => simp [lowered, valued, lowers]
  | flag resolved | present resolved => simp [lowered, resolved]
  | holds named resolved => simp [lowered, named, resolved]
  | nested resolved isNested _ innerHypothesis =>
      simp [lowered, resolved, isNested, innerHypothesis]
  | inside resolved notNested _ innerHypothesis =>
      simp [lowered, resolved, notNested, innerHypothesis]

/-- The query of a predicate is that of its derivation. -/
theorem lower_eq_ok_iff {predicate : Predicate} {query : Query} :
    (predicate.lower options scope).outcome = .ok query ↔
      ∃ result, Lowers options scope predicate result ∧ result.query = query := by
  rw [lower, Traced.bind_pure_outcome_eq_ok]
  exact exists_congr fun _ => and_congr_left fun _ => ⟨lowers_of_lowered, lowered_of_lowers⟩

/-- A compiled query comes from a derivation below no scope. -/
theorem lowers_of_compile {predicate : Predicate} {query : Query}
    (compiled : (predicate.compile options).outcome = .ok query) :
    ∃ result, Lowers options none predicate result ∧ result.query = query := by
  rw [compile, Traced.outcome_conclude] at compiled
  exact lower_eq_ok_iff.mp compiled

end Predicate

end Facet
