import Facet.Proofs.Field.Resolution
import Facet.Proofs.Query.Lowering

/-!
Which predicates compile.

A predicate is made of leaves: conditions on single fields, and the collections that conditions
on elements speak of. Whether a leaf is supported depends on the leaf alone. A predicate
compiles exactly if all of its leaves are supported, whatever the options.

Owns:
- the leaves of a predicate, each below the path of the collections around it, and when a leaf
  is supported;
- that exactly the predicates with supported leaves are lowered.

Does not own: the errors of other predicates.
-/

namespace Facet

/-! ### Literals -/

/-- Finite doubles are numbers of JSON. -/
def Double.IsFinite : Double → Prop
  | .finite _ _ _ => True
  | _ => False

namespace Literal

/-- The literal has a form in queries. -/
def IsQueryable : Literal → Prop
  | .float value => value.IsFinite
  | .bytes _ => False
  | .list _ => False
  | _ => True

/-- The literal can bound a range. -/
def IsBound : Literal → Prop
  | .integer _ => True
  | .float value => value.IsFinite
  | .string _ => True
  | .instant _ => True
  | _ => False

theorem toJson_succeeds_iff {literal : Literal} {context : String} :
    (∃ json, literal.toJson context = .ok json) ↔ literal.IsQueryable := by
  cases literal with
  | float value => cases value <;> simp [toJson, IsQueryable, Double.IsFinite]
  | _ => simp [toJson, IsQueryable]

private theorem isQueryable_of_isNull {literal : Literal} (null : literal.isNull = true) :
    literal.IsQueryable := by
  cases literal with
  | null => trivial
  | _ => cases null

/-- A literal bounds a range if it has a kind of range and a form in queries. -/
theorem isBound_iff {literal : Literal} :
    literal.IsBound ↔
      (∃ kind, Comparison.rangeKind? literal = some kind) ∧ literal.IsQueryable := by
  cases literal <;> simp [IsBound, IsQueryable, Comparison.rangeKind?]

end Literal

/-! ### Comparisons and equalities -/

namespace Comparison

variable {scope : Option Path} {comparison : Comparison}

/-- The comparison has a field with a path, and a literal that bounds a range, or null. -/
def IsSupported (comparison : Comparison) : Prop :=
  comparison.field.Resolves ∧ (comparison.value.isNull = true ∨ comparison.value.IsBound)

theorem range_succeeds_iff :
    (∃ range, comparison.range scope = .ok range) ↔
      comparison.field.Resolves ∧ comparison.value.IsBound := by
  rw [← FieldExpr.wireWithin_succeeds_iff scope, Literal.isBound_iff]
  constructor
  · rintro ⟨_, ranged⟩
    obtain ⟨wire, kind, json, resolved, kinded, valued, _⟩ := range_eq_ok_iff.mp ranged
    exact ⟨⟨wire, resolved⟩, ⟨kind, kinded⟩, Literal.toJson_succeeds_iff.mp ⟨json, valued⟩⟩
  · rintro ⟨⟨wire, resolved⟩, ⟨kind, kinded⟩, queryable⟩
    obtain ⟨json, valued⟩ := Literal.toJson_succeeds_iff.mpr queryable
    exact ⟨_, range_eq_ok_iff.mpr ⟨wire, kind, json, resolved, kinded, valued, rfl⟩⟩

theorem lower_succeeds_iff :
    (∃ query, comparison.lower scope = .ok query) ↔ comparison.IsSupported := by
  constructor
  · rintro ⟨_, lowers⟩
    rcases lower_eq_ok_iff.mp lowers with ⟨null, _, resolved⟩ | ⟨_, range, ranged, _⟩
    · exact ⟨(FieldExpr.wireWithin_succeeds_iff scope).mp resolved, Or.inl null⟩
    · have supported := range_succeeds_iff.mp ⟨range, ranged⟩
      exact ⟨supported.1, Or.inr supported.2⟩
  · rintro ⟨resolves, literal⟩
    cases null : comparison.value.isNull with
    | true =>
        have resolved := (FieldExpr.wireWithin_succeeds_iff scope).mpr resolves
        exact ⟨_, lower_eq_ok_iff.mpr (Or.inl ⟨null, rfl, resolved⟩)⟩
    | false =>
        have bound : comparison.value.IsBound := literal.resolve_left (by simp [null])
        obtain ⟨range, ranged⟩ := range_succeeds_iff.mpr ⟨resolves, bound⟩
        exact ⟨_, lower_eq_ok_iff.mpr (Or.inr ⟨null, range, ranged, rfl⟩)⟩

/-- With another literal than null, a comparison needs a range. -/
theorem isSupported_of_valued (valued : comparison.value.isNull = false) :
    comparison.IsSupported ↔ comparison.field.Resolves ∧ comparison.value.IsBound := by
  simp only [IsSupported, valued, Bool.false_eq_true, false_or]

/-- A comparison whose field has no path fails with that, whatever its literal is. -/
theorem lower_refused_of_field {error : Error}
    (fails : comparison.field.wireWithin scope = .error error) :
    comparison.lower scope = .error error := by
  unfold lower range
  split <;> simp only [fails] <;> rfl

end Comparison

namespace Predicate

variable {options : CompilerOptions} {scope : Option Path}

theorem lowerEquals_succeeds_iff {field : FieldExpr} {value : Literal} :
    (∃ query, lowerEquals scope field value = .ok query) ↔
      field.Resolves ∧ value.IsQueryable := by
  rw [← FieldExpr.wireWithin_succeeds_iff scope]
  unfold lowerEquals
  cases null : value.isNull with
  | true =>
      have queryable := Literal.isQueryable_of_isNull null
      simp only [if_true, Outcome.bind_eq_ok, Outcome.pure_eq_ok, queryable, and_true]
      constructor
      · rintro ⟨_, wire, resolved, _⟩
        exact ⟨wire, resolved⟩
      · rintro ⟨wire, resolved⟩
        exact ⟨_, wire, resolved, rfl⟩
  | false =>
      simp only [Bool.false_eq_true, if_false, Outcome.bind_eq_ok, Outcome.pure_eq_ok]
      constructor
      · rintro ⟨_, wire, resolved, json, valued, _⟩
        exact ⟨⟨wire, resolved⟩, Literal.toJson_succeeds_iff.mp ⟨json, valued⟩⟩
      · rintro ⟨⟨wire, resolved⟩, queryable⟩
        obtain ⟨json, valued⟩ := Literal.toJson_succeeds_iff.mpr queryable
        exact ⟨_, wire, resolved, json, valued, rfl⟩

/-! ### Leaves -/

/-- What is supported or not by itself: a condition on a single field, or the collection that a
condition speaks of. -/
inductive Part where
  | condition (predicate : Predicate)
  | collection (field : FieldExpr)

/-- A part with the path of the collections around it. If one of these has no path, neither has
the scope. -/
structure Leaf where
  scope : Except Error (Option Path)
  part : Part

/-- The leaves of a predicate, from left to right. A collection comes before the leaves of the
condition on its elements. -/
def leaves : Except Error (Option Path) → Predicate → List Leaf
  | scope, .and left right => leaves scope left ++ leaves scope right
  | scope, .or left right => leaves scope left ++ leaves scope right
  | scope, .not inner => leaves scope inner
  | scope, .any collection inner =>
      ⟨scope, .collection collection⟩ ::
        leaves (do return some (← collection.resolveWithin (← scope))) inner
  | scope, condition => [⟨scope, .condition condition⟩]

/-- The predicate has no other predicates in it. -/
def IsCondition : Predicate → Prop
  | .and _ _ | .or _ _ | .not _ | .any _ _ => False
  | _ => True

/-- When a part is supported. -/
def Part.IsSupported : Part → Prop
  | .collection field => field.Resolves
  | .condition (.compare comparison) => comparison.IsSupported
  | .condition (.equals field value) => field.Resolves ∧ value.IsQueryable
  | .condition (.notEquals field value) => field.Resolves ∧ value.IsQueryable
  | .condition (.flag field) => field.Resolves
  | .condition (.present field) => field.Resolves
  | .condition (.holds field) => field.isNamed = true ∧ field.Resolves
  | .condition _ => False

private theorem leaves_condition {predicate : Predicate} (condition : predicate.IsCondition)
    (scope : Except Error (Option Path)) :
    predicate.leaves scope = [⟨scope, .condition predicate⟩] := by
  cases predicate with
  | and _ _ | or _ _ | not _ | any _ _ => exact condition.elim
  | _ => rfl

theorem lowers_compare_iff {comparison : Comparison} :
    (∃ result, Lowers options scope (.compare comparison) result) ↔ comparison.IsSupported := by
  rw [← Comparison.lower_succeeds_iff]
  constructor
  · rintro ⟨_, lowered⟩
    cases lowered with
    | compare lowers => exact ⟨_, lowers⟩
  · rintro ⟨_, lowers⟩
    exact ⟨_, .compare lowers⟩

/-- Differing from null is lowered on a path of its own, and needs no more than the others. -/
theorem lowers_notEquals_iff {field : FieldExpr} {value : Literal} :
    (∃ result, Lowers options scope (.notEquals field value) result) ↔
      field.Resolves ∧ value.IsQueryable := by
  constructor
  · rintro ⟨_, lowered⟩
    cases lowered with
    | notNull null resolved =>
        have queryable := Literal.isQueryable_of_isNull null
        exact ⟨(FieldExpr.wireWithin_succeeds_iff scope).mp ⟨_, resolved⟩, queryable⟩
    | notEquals _ lowers => exact lowerEquals_succeeds_iff.mp ⟨_, lowers⟩
  · intro supported
    cases null : value.isNull with
    | true =>
        obtain ⟨_, resolved⟩ := (FieldExpr.wireWithin_succeeds_iff scope).mpr supported.1
        exact ⟨_, .notNull null resolved⟩
    | false =>
        obtain ⟨_, lowers⟩ := lowerEquals_succeeds_iff.mpr supported
        exact ⟨_, .notEquals null lowers⟩

/-- A condition is lowered below any scope exactly if it is supported. -/
theorem lowers_condition_iff {predicate : Predicate} (condition : predicate.IsCondition) :
    (∃ result, Lowers options scope predicate result) ↔
      (Part.condition predicate).IsSupported := by
  cases predicate with
  | and _ _ | or _ _ | not _ | any _ _ => exact condition.elim
  | compare comparison => exact lowers_compare_iff
  | equals field value =>
      show _ ↔ field.Resolves ∧ value.IsQueryable
      rw [← lowerEquals_succeeds_iff]
      constructor
      · rintro ⟨_, lowered⟩
        cases lowered with
        | equals lowers => exact ⟨_, lowers⟩
      · rintro ⟨_, lowers⟩
        exact ⟨_, .equals lowers⟩
  | notEquals field value => exact lowers_notEquals_iff
  | flag field =>
      show _ ↔ field.Resolves
      rw [← FieldExpr.wireWithin_succeeds_iff scope]
      constructor
      · rintro ⟨_, lowered⟩
        cases lowered with
        | flag resolved => exact ⟨_, resolved⟩
      · rintro ⟨_, resolved⟩
        exact ⟨_, .flag resolved⟩
  | present field =>
      show _ ↔ field.Resolves
      rw [← FieldExpr.wireWithin_succeeds_iff scope]
      constructor
      · rintro ⟨_, lowered⟩
        cases lowered with
        | present resolved => exact ⟨_, resolved⟩
      · rintro ⟨_, resolved⟩
        exact ⟨_, .present resolved⟩
  | holds field =>
      show _ ↔ field.isNamed = true ∧ field.Resolves
      rw [← FieldExpr.wireWithin_succeeds_iff scope]
      constructor
      · rintro ⟨_, lowered⟩
        cases lowered with
        | holds named resolved => exact ⟨named, _, resolved⟩
      · rintro ⟨named, _, resolved⟩
        exact ⟨_, .holds named resolved⟩
  | call target method =>
      constructor
      · rintro ⟨_, lowered⟩
        cases lowered
      · exact False.elim

/-! ### Chains of leaves -/

/-- Whatever is lowered has been examined without a fault. -/
theorem examine_of_lowers {predicate : Predicate} {result : Lowered}
    (lowers : Lowers options scope predicate result) :
    examine options scope predicate = .ok () := by
  cases lowers with
  | merged pair _ _ =>
      rw [examine, pair]
      rfl
  | chain pair leftExamined rightExamined _ _ =>
      rw [examine, pair, Outcome.ok_bind]
      simp only [leftExamined, rightExamined]
      rfl
  | _ => rfl

/-- Looking for a pair fails only if the field of one of two comparisons has no path. -/
theorem mergedPair_refused {left right : Predicate} {error : Error}
    (fails : mergedPair options scope left right = .error error) :
    ∃ first second : Comparison, left = .compare first ∧ right = .compare second ∧
      (first.field.wireWithin scope = .error error ∨
        second.field.wireWithin scope = .error error) := by
  unfold mergedPair at fails
  split at fails
  · next first second =>
      refine ⟨first, second, rfl, rfl, ?_⟩
      split at fails
      · have merges := Outcome.bind_pure_eq_error.mp fails
        unfold Comparison.merges at merges
        split at merges
        · rcases Outcome.bind_eq_error.mp merges with firstFails | ⟨_, _, later⟩
          · exact Or.inl firstFails
          · exact Or.inr (Outcome.bind_pure_eq_error.mp later)
        · cases merges
      · cases fails
  · cases fails

/-- Where both sides of a conjunction are lowered, looking for a pair does not fail. -/
theorem mergedPair_succeeds {left right : Predicate} {leftResult rightResult : Lowered}
    (leftLowers : Lowers options scope left leftResult)
    (rightLowers : Lowers options scope right rightResult) :
    ∃ pair, mergedPair options scope left right = .ok pair := by
  cases looked : mergedPair options scope left right with
  | ok pair => exact ⟨pair, rfl⟩
  | error error =>
      exfalso
      obtain ⟨first, second, rfl, rfl, unresolved⟩ := mergedPair_refused looked
      obtain ⟨firstResolves, _⟩ := lowers_compare_iff.mp ⟨_, leftLowers⟩
      obtain ⟨secondResolves, _⟩ := lowers_compare_iff.mp ⟨_, rightLowers⟩
      rw [← FieldExpr.wireWithin_succeeds_iff scope] at firstResolves secondResolves
      obtain ⟨_, firstResolved⟩ := firstResolves
      obtain ⟨_, secondResolved⟩ := secondResolves
      rcases unresolved with unresolved | unresolved
      · rw [firstResolved] at unresolved
        cases unresolved
      · rw [secondResolved] at unresolved
        cases unresolved

/-- Two comparisons that merge are lowered one by one exactly if each of them has a range. -/
theorem lowers_pair_iff {left right : Predicate} {lower upper : Comparison}
    (pair : mergedPair options scope left right = .ok (some (lower, upper))) :
    ((∃ result, Lowers options scope left result) ↔ ∃ range, lower.range scope = .ok range) ∧
      ((∃ result, Lowers options scope right result) ↔
        ∃ range, upper.range scope = .ok range) := by
  obtain ⟨rfl, rfl, _, merges⟩ := mergedPair_eq_some_iff.mp pair
  obtain ⟨opposite, _⟩ := Comparison.merges_eq_ok_true_iff.mp merges
  obtain ⟨lowerValued, upperValued, _⟩ := Comparison.areOpposite_iff.mp opposite
  constructor
  · rw [lowers_compare_iff, Comparison.range_succeeds_iff]
    exact Comparison.isSupported_of_valued lowerValued
  · rw [lowers_compare_iff, Comparison.range_succeeds_iff]
    exact Comparison.isSupported_of_valued upperValued

/-- A conjunction is lowered exactly if both of its sides are. -/
theorem lowers_and_iff {left right : Predicate} :
    (∃ result, Lowers options scope (.and left right) result) ↔
      (∃ result, Lowers options scope left result) ∧
        ∃ result, Lowers options scope right result := by
  constructor
  · rintro ⟨_, lowers⟩
    cases lowers with
    | merged pair lowerRanged upperRanged =>
        obtain ⟨left, right⟩ := lowers_pair_iff pair
        exact ⟨left.mpr ⟨_, lowerRanged⟩, right.mpr ⟨_, upperRanged⟩⟩
    | chain _ _ _ leftLowers rightLowers => exact ⟨⟨_, leftLowers⟩, ⟨_, rightLowers⟩⟩
  · rintro ⟨⟨_, leftLowers⟩, ⟨_, rightLowers⟩⟩
    have leftExamined := examine_of_lowers leftLowers
    have rightExamined := examine_of_lowers rightLowers
    obtain ⟨found, pair⟩ := mergedPair_succeeds leftLowers rightLowers
    cases found with
    | none => exact ⟨_, .chain pair leftExamined rightExamined leftLowers rightLowers⟩
    | some comparisons =>
        obtain ⟨lower, upper⟩ := comparisons
        obtain ⟨left, right⟩ := lowers_pair_iff pair
        obtain ⟨_, lowerRanged⟩ := left.mp ⟨_, leftLowers⟩
        obtain ⟨_, upperRanged⟩ := right.mp ⟨_, rightLowers⟩
        exact ⟨_, .merged pair lowerRanged upperRanged⟩

/-! ### Acceptance -/

/-- A predicate is lowered below any scope exactly if all of its leaves are supported. -/
theorem lowers_iff_supported {predicate : Predicate} :
    (∃ result, Lowers options scope predicate result) ↔
      ∀ leaf ∈ predicate.leaves (.ok scope), leaf.part.IsSupported := by
  induction predicate generalizing scope with
  | and left right leftHypothesis rightHypothesis =>
      rw [lowers_and_iff, leaves, List.forall_mem_append, leftHypothesis, rightHypothesis]
  | or left right leftHypothesis rightHypothesis =>
      rw [leaves, List.forall_mem_append, ← leftHypothesis, ← rightHypothesis]
      constructor
      · rintro ⟨_, lowers⟩
        cases lowers with
        | or leftLowers rightLowers => exact ⟨⟨_, leftLowers⟩, ⟨_, rightLowers⟩⟩
      · rintro ⟨⟨_, leftLowers⟩, ⟨_, rightLowers⟩⟩
        exact ⟨_, .or leftLowers rightLowers⟩
  | not inner innerHypothesis =>
      rw [leaves, ← innerHypothesis]
      constructor
      · rintro ⟨_, lowers⟩
        cases lowers with
        | not innerLowers => exact ⟨_, innerLowers⟩
      · rintro ⟨_, innerLowers⟩
        exact ⟨_, .not innerLowers⟩
  | any collection inner innerHypothesis =>
      rw [leaves, List.forall_mem_cons]
      constructor
      · rintro ⟨_, lowers⟩
        cases lowers with
        | nested resolved _ innerLowers | inside resolved _ innerLowers =>
            refine ⟨(FieldExpr.resolveWithin_succeeds_iff scope).mp ⟨_, resolved⟩, ?_⟩
            rw [Outcome.ok_bind, resolved]
            exact innerHypothesis.mp ⟨_, innerLowers⟩
      · rintro ⟨resolves, within⟩
        obtain ⟨path, resolved⟩ := (FieldExpr.resolveWithin_succeeds_iff scope).mpr resolves
        rw [Outcome.ok_bind, resolved] at within
        obtain ⟨_, innerLowers⟩ := innerHypothesis.mpr within
        cases isNested : options.isNested path.wire with
        | true => exact ⟨_, .nested resolved isNested innerLowers⟩
        | false => exact ⟨_, .inside resolved isNested innerLowers⟩
  | _ =>
      rw [lowers_condition_iff (by trivial), leaves_condition (by trivial),
        List.forall_mem_singleton]

theorem compile_outcome (predicate : Predicate) :
    (predicate.compile options).outcome = (predicate.lower options none).outcome :=
  Traced.outcome_conclude _ _ _

theorem lower_succeeds_iff {predicate : Predicate} :
    (∃ query, (predicate.lower options scope).outcome = .ok query) ↔
      ∀ leaf ∈ predicate.leaves (.ok scope), leaf.part.IsSupported := by
  rw [← lowers_iff_supported]
  constructor
  · rintro ⟨query, succeeds⟩
    obtain ⟨result, lowers, _⟩ := lower_eq_ok_iff.mp succeeds
    exact ⟨result, lowers⟩
  · rintro ⟨result, lowers⟩
    exact ⟨result.query, lower_eq_ok_iff.mpr ⟨result, lowers, rfl⟩⟩

end Predicate

end Facet
