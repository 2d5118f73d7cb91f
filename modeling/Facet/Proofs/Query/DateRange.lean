import Facet.Proofs.Instant.Order
import Facet.Proofs.Query.Reporting
import Facet.Proofs.Query.WellFormed

/-!
Ranges of dates with bounds on both sides.

Only merging bounds a range on both sides. The bounds of such a range of dates are the texts of
two instants that the predicate compares one field with, side by side.

Owns:
- comparisons that stand side by side in a conjunction;
- date ranges that two comparisons with instants merge into;
- that every date range of a compiled query with bounds on both sides is one of these.

Does not own: the order of the texts.
-/

namespace Facet

/-- The two comparisons stand side by side in a conjunction, somewhere in a predicate. -/
inductive Predicate.Conjoins (left right : Comparison) : Predicate → Prop where
  | here : Conjoins left right (.and (.compare left) (.compare right))
  | andLeft {first second : Predicate} (found : Conjoins left right first) :
      Conjoins left right (.and first second)
  | andRight {first second : Predicate} (found : Conjoins left right second) :
      Conjoins left right (.and first second)
  | orLeft {first second : Predicate} (found : Conjoins left right first) :
      Conjoins left right (.or first second)
  | orRight {first second : Predicate} (found : Conjoins left right second) :
      Conjoins left right (.or first second)
  | not {inner : Predicate} (found : Conjoins left right inner) : Conjoins left right (.not inner)
  | any {collection : FieldExpr} {inner : Predicate} (found : Conjoins left right inner) :
      Conjoins left right (.any collection inner)

/-- The range is what two comparisons with instants merge into, whichever comes first: one bounds
it from below and the other from above, by the texts of their instants. -/
structure Query.Range.IsBetween (range : Query.Range) (below above : Comparison)
    (lower upper : Instant) : Prop where
  isLower : below.comparator.isLower = true
  isUpper : above.comparator.isLower = false
  belowValue : below.value = .instant lower
  aboveValue : above.value = .instant upper
  bounds : range.bounds.values = [.string lower.text, .string upper.text]

namespace Comparison

variable {scope : Option Path}

/-- Only instants are compared as dates. -/
theorem value_of_date {literal : Literal} {context : String} {json : Json}
    (kinded : rangeKind? literal = some .date) (valued : literal.toJson context = .ok json) :
    ∃ instant, literal = .instant instant ∧ json = .string instant.text := by
  cases literal with
  | instant value =>
      cases valued
      exact ⟨value, rfl, rfl⟩
  | _ => cases kinded

/-- Bounds from opposite sides merge to the lower and the upper one, whichever comes first. -/
theorem values_of_sides {below above : Comparator} (isLower : below.isLower = true)
    (isUpper : above.isLower = false) (lower upper : Json) :
    ((bound below lower).merge (bound above upper)).values = [lower, upper] ∧
      ((bound above upper).merge (bound below lower)).values = [lower, upper] := by
  cases below <;> cases above <;>
    first
      | exact ⟨rfl, rfl⟩
      | exact absurd isLower (by decide)
      | exact absurd isUpper (by decide)

/-- Two comparisons that merge to a range of dates have instants, one on each side. -/
theorem isBetween_of_merges {left right : Comparison} {leftRange rightRange : Query.Range}
    (merging : merges scope left right = .ok true)
    (leftRanged : left.range scope = .ok leftRange)
    (rightRanged : right.range scope = .ok rightRange) (date : leftRange.kind = .date) :
    let range : Query.Range :=
      ⟨leftRange.field, leftRange.kind, leftRange.bounds.merge rightRange.bounds⟩
    ∃ lower upper, range.IsBetween left right lower upper ∨
      range.IsBetween right left lower upper := by
  have kinds := kind_eq_of_merges merging leftRanged rightRanged
  obtain ⟨opposite, _⟩ := merges_eq_ok_true_iff.mp merging
  obtain ⟨_, _, sides, _⟩ := areOpposite_iff.mp opposite
  obtain ⟨_, _, _, _, leftKinded, leftValued, rfl⟩ := range_eq_ok_iff.mp leftRanged
  obtain ⟨_, _, _, _, rightKinded, rightValued, rfl⟩ := range_eq_ok_iff.mp rightRanged
  cases date
  cases kinds
  obtain ⟨first, leftValue, rfl⟩ := value_of_date leftKinded leftValued
  obtain ⟨second, rightValue, rfl⟩ := value_of_date rightKinded rightValued
  cases leftSide : left.comparator.isLower with
  | true =>
      have rightSide : right.comparator.isLower = false :=
        Bool.eq_false_iff.mpr fun same => sides (leftSide.trans same.symm)
      have values := (values_of_sides leftSide rightSide (.string first.text)
        (.string second.text)).1
      exact ⟨first, second, .inl ⟨leftSide, rightSide, leftValue, rightValue, values⟩⟩
  | false =>
      have rightSide : right.comparator.isLower = true :=
        Bool.eq_true_of_not_eq_false fun same => sides (leftSide.trans same.symm)
      have values := (values_of_sides rightSide leftSide (.string second.text)
        (.string first.text)).2
      exact ⟨second, first, .inr ⟨rightSide, leftSide, rightValue, leftValue, values⟩⟩

end Comparison

namespace Predicate

variable {options : CompilerOptions} {scope : Option Path}

/-- The range, if it is one of dates with bounds on both sides, comes from comparisons with
instants that stand side by side in the predicate. -/
def DatesBetween (predicate : Predicate) (range : Query.Range) : Prop :=
  range.kind = .date → range.isTwoSided = true →
    ∃ below above lower upper,
      (predicate.Conjoins below above ∨ predicate.Conjoins above below) ∧
        range.IsBetween below above lower upper

private theorem DatesBetween.imp {predicate other : Predicate} {range : Query.Range}
    (lifts : ∀ {left right}, predicate.Conjoins left right → other.Conjoins left right)
    (bounds : predicate.DatesBetween range) : other.DatesBetween range := by
  intro date twoSided
  obtain ⟨below, above, lower, upper, found, between⟩ := bounds date twoSided
  exact ⟨below, above, lower, upper, found.imp lifts lifts, between⟩

/-- Lowering makes no other date ranges with bounds on both sides. -/
theorem datesBetween_of_lowers {predicate : Predicate} {result : Lowered}
    (lowers : Lowers options scope predicate result) :
    ∀ range ∈ result.query.ranges, predicate.DatesBetween range := by
  induction lowers with
  | merged pair leftRanged rightRanged =>
      obtain ⟨rfl, rfl, _, merging⟩ := mergedPair_eq_some_iff.mp pair
      rw [Lowered.query_one, Query.ranges, List.forall_mem_singleton]
      intro date _
      obtain ⟨lower, upper, between | between⟩ :=
        Comparison.isBetween_of_merges merging leftRanged rightRanged date
      · exact ⟨_, _, lower, upper, .inl .here, between⟩
      · exact ⟨_, _, lower, upper, .inr .here, between⟩
  | chain _ _ _ _ _ leftHypothesis rightHypothesis =>
      rw [Lowered.ranges_query] at leftHypothesis rightHypothesis ⊢
      rw [Lowered.clauses, Query.rangesAll_append, List.forall_mem_append]
      exact ⟨fun range member => (leftHypothesis range member).imp .andLeft,
        fun range member => (rightHypothesis range member).imp .andRight⟩
  | or _ _ leftHypothesis rightHypothesis =>
      rw [Lowered.query_one, Query.ranges_anyOf, List.forall_mem_append]
      exact ⟨fun range member => (leftHypothesis range member).imp .orLeft,
        fun range member => (rightHypothesis range member).imp .orRight⟩
  | not _ innerHypothesis =>
      rw [Lowered.query_one, Query.ranges_negation]
      exact fun range member => (innerHypothesis range member).imp .not
  | nested _ _ _ innerHypothesis =>
      exact fun range member => (innerHypothesis range member).imp .any
  | inside _ _ _ innerHypothesis =>
      rw [Lowered.query_one, Query.ranges_single]
      exact fun range member => (innerHypothesis range member).imp .any
  | compare lowers =>
      rcases Comparison.lower_eq_ok_iff.mp lowers with ⟨_, rfl, _⟩ | ⟨_, range, ranged, rfl⟩
      · exact List.forall_mem_nil _
      · rw [Lowered.query_one, Query.ranges, List.forall_mem_singleton]
        intro _ twoSided
        rw [Comparison.isTwoSided_of_range ranged] at twoSided
        cases twoSided
  | equals lowers =>
      rw [Lowered.query_one, ranges_of_lowerEquals lowers]
      exact List.forall_mem_nil _
  | notEquals _ lowers =>
      simp [ranges_of_lowerEquals lowers]
  | notNull _ _ | flag _ | present _ | holds _ _ =>
      intro range member
      cases member

end Predicate

end Facet
