import Facet.Proofs.Query.Acceptance
import Facet.Proofs.Query.Correctness

/-!
What merging ranges changes.

Merging decides neither which predicates compile nor what a query means on documents that divide
no merged pair. Two comparisons that merge become a statement about one value, so a document that
meets them by two different values is lost.

Owns:
- the options with merging turned on and turned off;
- that a predicate compiles with merging exactly if it does without;
- that both queries match the same documents, in every part of the predicate, exactly where no
  merged pair is divided, and that merging never adds documents to a predicate without negations;
- a flattened collection that merging loses.
-/

namespace Facet

/-! ### Options with and without merging -/

namespace CompilerOptions

/-- The options with merging turned on. -/
def merging (options : CompilerOptions) : CompilerOptions :=
  { options with mergeRanges := true }

/-- The options with merging turned off. -/
def separate (options : CompilerOptions) : CompilerOptions :=
  { options with mergeRanges := false }

end CompilerOptions

namespace Predicate

variable {options : CompilerOptions} {order : Order} {scope : Option Path} {document : Document}
  {predicate : Predicate}

/-- What a predicate says of a document depends on which paths are nested, and on no other
option. -/
theorem isMet_eq_of_nestedPaths (first second : CompilerOptions)
    (same : first.nestedPaths = second.nestedPaths) (order : Order) (scope : Option Path)
    (document : Document) (predicate : Predicate) :
    predicate.isMet first order scope document = predicate.isMet second order scope document := by
  have nested (path : String) : first.isNested path = second.isNested path := by
    rw [CompilerOptions.isNested, CompilerOptions.isNested, same]
  induction predicate generalizing scope document with
  | and left right leftHypothesis rightHypothesis =>
      simp only [isMet, leftHypothesis, rightHypothesis]
  | or left right leftHypothesis rightHypothesis =>
      simp only [isMet, leftHypothesis, rightHypothesis]
  | not inner innerHypothesis => simp only [isMet, innerHypothesis]
  | any collection inner innerHypothesis => simp only [isMet, innerHypothesis, nested]
  | _ => rfl

/-- Whether a predicate is lowered does not depend on the options. -/
theorem lowers_of_lowers {first : CompilerOptions} {result : Lowered}
    (lowers : Lowers first scope predicate result) (second : CompilerOptions) :
    ∃ other, Lowers second scope predicate other :=
  lowers_iff_supported.mpr (lowers_iff_supported.mp ⟨result, lowers⟩)

/-! ### The readings with and without merging -/

/-- The queries of a predicate with and without merging both match the document, or neither
does. -/
def AgreesUnmerged (options : CompilerOptions) (order : Order) (scope : Option Path)
    (document : Document) (predicate : Predicate) : Prop :=
  ∀ merged separate, (predicate.lower options.merging scope).outcome = .ok merged →
    (predicate.lower options.separate scope).outcome = .ok separate →
      merged.holds order document = separate.holds order document

/-- Without merging the query reads its predicate as such. -/
theorem holds_of_lowers_separate {result : Lowered}
    (lowers : Lowers options.separate scope predicate result) (order : Order)
    (document : Document) :
    result.query.holds order document = predicate.isMet options.merging order scope document := by
  have undivided : AtEveryPart options.separate (IsUndivided options.separate order) scope
      document predicate := undivided_of_not_mergeRanges rfl order scope document predicate
  rw [holds_of_lowers lowers, isMetMerged_eq_isMet undivided]
  exact isMet_eq_of_nestedPaths options.separate options.merging rfl order scope document
    predicate

/-- The queries with and without merging agree where the query with merging agrees with the
predicate. -/
theorem agreesUnmerged_iff_agrees {result : Lowered}
    (lowers : Lowers options.merging scope predicate result) :
    AgreesUnmerged options order scope document predicate ↔
      Agrees options.merging order scope document predicate := by
  obtain ⟨separate, separateLowers⟩ := lowers_of_lowers lowers options.separate
  constructor
  · intro agrees query lowered
    rw [agrees query separate.query lowered (lower_eq_ok_iff.mpr ⟨_, separateLowers, rfl⟩)]
    exact holds_of_lowers_separate separateLowers order document
  · intro agrees merged other lowered otherLowered
    obtain ⟨_, otherLowers, rfl⟩ := lower_eq_ok_iff.mp otherLowered
    rw [agrees merged lowered, holds_of_lowers_separate otherLowers]

/-- In all parts of a predicate the queries with and without merging agree exactly if no merged
pair is divided. -/
theorem agreesUnmerged_everywhere_iff {result : Lowered}
    (lowers : Lowers options.merging scope predicate result) :
    AtEveryPart options.merging (AgreesUnmerged options order) scope document predicate ↔
      AtEveryPart options.merging (IsUndivided options.merging order) scope document
        predicate := by
  rw [← agrees_everywhere_iff lowers]
  have lowered := lowers_everywhere lowers document
  constructor
  · refine fun agrees => lowered.imp (fun _ _ part parts agreeing => ?_) agrees
    obtain ⟨_, partLowers⟩ := parts.whole
    exact (agreesUnmerged_iff_agrees partLowers).mp agreeing.whole
  · refine fun agrees => lowered.imp (fun _ _ part parts agreeing => ?_) agrees
    obtain ⟨_, partLowers⟩ := parts.whole
    exact (agreesUnmerged_iff_agrees partLowers).mpr agreeing.whole

/-! ### Predicates without negations -/

/-- No predicate in the predicate is negated. Inequalities do count as conditions here, since
they never merge. -/
def IsPositive : Predicate → Prop
  | .and left right => left.IsPositive ∧ right.IsPositive
  | .or left right => left.IsPositive ∧ right.IsPositive
  | .not _ => False
  | .any _ inner => inner.IsPositive
  | _ => True

/-- Where nothing is negated, the reading with one value is the stricter one. -/
theorem isMet_of_isMetMerged (positive : predicate.IsPositive)
    (met : predicate.isMetMerged options order scope document = true) :
    predicate.isMet options order scope document = true := by
  induction predicate generalizing scope document with
  | and left right leftHypothesis rightHypothesis =>
      rw [isMet, Bool.and_eq_true]
      rw [isMetMerged] at met
      split at met
      · next lower upper pair =>
          obtain ⟨rfl, rfl, _, merges⟩ := mergedPair_eq_some_iff.mp pair
          exact Comparison.isMet_of_areMetByOne merges met
      · have both := (Bool.and_eq_true _ _).mp met
        exact ⟨leftHypothesis positive.1 both.1, rightHypothesis positive.2 both.2⟩
  | or left right leftHypothesis rightHypothesis =>
      rw [isMetMerged, Bool.or_eq_true] at met
      rw [isMet, Bool.or_eq_true]
      exact met.imp (leftHypothesis positive.1) (rightHypothesis positive.2)
  | not inner _ => exact positive.elim
  | any collection inner innerHypothesis =>
      rw [isMetMerged] at met
      rw [isMet]
      cases resolved : collection.resolveWithin scope with
      | error _ =>
          rw [resolved] at met
          cases met
      | ok path =>
          rw [resolved] at met
          by_cases nested : options.isNested path.wire = true
          · simp only [nested, if_true, List.any_eq_true] at met ⊢
            obtain ⟨element, member, elementMet⟩ := met
            exact ⟨element, member, innerHypothesis positive elementMet⟩
          · simp only [nested] at met ⊢
            exact innerHypothesis positive met
  | _ => exact met

/-! ### Queries with and without merging -/

/-- **What merging changes.** A predicate that compiles at all does so with and without merging.
The query without merging holds of the documents that satisfy the predicate, the one with merging
of those that satisfy it when merged pairs speak of one value. Both match the same documents, in
every part of the predicate, exactly where the document divides no merged pair, such as any
document with single values. If the predicate negates nothing, merging can only lose
documents. -/
theorem merging_agrees_iff_undivided {query : Query}
    (compiled : (predicate.compile options).outcome = .ok query) :
    ∃ merged separate, (predicate.compile options.merging).outcome = .ok merged ∧
      (predicate.compile options.separate).outcome = .ok separate ∧
      ∀ order document,
        merged.holds order document =
            predicate.isMetMerged options.merging order none document ∧
          separate.holds order document = predicate.isMet options order none document ∧
          (AtEveryPart options.merging (AgreesUnmerged options order) none document predicate ↔
            AtEveryPart options.merging (IsUndivided options.merging order) none document
              predicate) ∧
          (AtEveryPart options.merging (IsUndivided options.merging order) none document
                predicate ∨ document.SingleValued →
            merged.holds order document = separate.holds order document) ∧
          (predicate.IsPositive → merged.holds order document = true →
            separate.holds order document = true) := by
  obtain ⟨_, lowers, _⟩ := lowers_of_compile compiled
  obtain ⟨merged, mergedLowers⟩ := lowers_of_lowers lowers options.merging
  obtain ⟨separate, separateLowers⟩ := lowers_of_lowers lowers options.separate
  have mergedCompiled : (predicate.compile options.merging).outcome = .ok merged.query := by
    rw [compile_outcome]
    exact lower_eq_ok_iff.mpr ⟨_, mergedLowers, rfl⟩
  have separateCompiled : (predicate.compile options.separate).outcome = .ok separate.query := by
    rw [compile_outcome]
    exact lower_eq_ok_iff.mpr ⟨_, separateLowers, rfl⟩
  refine ⟨merged.query, separate.query, mergedCompiled, separateCompiled, ?_⟩
  intro order document
  have mergedHolds := holds_of_lowers mergedLowers order document
  have separateHolds := holds_of_lowers_separate separateLowers order document
  have agrees : AtEveryPart options.merging (IsUndivided options.merging order) none document
      predicate → merged.query.holds order document = separate.query.holds order document := by
    intro undivided
    rw [mergedHolds, separateHolds, isMetMerged_eq_isMet undivided]
  refine ⟨mergedHolds, ?_, agreesUnmerged_everywhere_iff mergedLowers, ?_, ?_⟩
  · rw [separateHolds]
    exact isMet_eq_of_nestedPaths options.merging options rfl order none document predicate
  · rintro (undivided | single)
    · exact agrees undivided
    · exact agrees (undivided_of_singleValued single options.merging order none predicate)
  · intro positive holds
    rw [separateHolds]
    rw [mergedHolds] at holds
    exact isMet_of_isMetMerged positive holds

/-- A single passenger of four years in a flattened collection is found either way. -/
theorem merging_keeps_single_passenger :
    let predicate := Predicate.any (.property "Passengers") (betweenTwoAndSix (.property "Age"))
    let document := withIntegers "passengers.age" [4]
    ∃ merged separate, (predicate.compile .standard).outcome = .ok merged ∧
      (predicate.compile .withoutMerging).outcome = .ok separate ∧
      merged.holds integerOrder document = true ∧
      separate.holds integerOrder document = true := by
  intro predicate document
  have compiled : (predicate.compile .standard).outcome =
      .ok (.allOf [rangeFromTwoToSix "passengers.age"]) := rfl
  obtain ⟨merged, separate, mergedCompiled, separateCompiled, reading⟩ :=
    merging_agrees_iff_undivided compiled
  obtain ⟨mergedHolds, _, _, agrees, _⟩ := reading integerOrder document
  have met : merged.holds integerOrder document = true := mergedHolds
  have same := agrees (Or.inr (singleValued_withIntegers _ 4))
  exact ⟨merged, separate, mergedCompiled, separateCompiled, met, same.symm.trans met⟩

/-- Two passengers in a flattened collection, one and ten years old, are found without merging
and not with it. -/
theorem merging_loses_flattened_passengers :
    let predicate := Predicate.any (.property "Passengers") (betweenTwoAndSix (.property "Age"))
    let document := withIntegers "passengers.age" [1, 10]
    ∃ merged separate, (predicate.compile .standard).outcome = .ok merged ∧
      (predicate.compile .withoutMerging).outcome = .ok separate ∧
      merged.holds integerOrder document = false ∧
      separate.holds integerOrder document = true :=
  ⟨_, _, rfl, rfl, rfl, rfl⟩

end Predicate

end Facet
