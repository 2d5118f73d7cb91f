import Facet.Proofs.Query.Acceptance
import Facet.Proofs.Query.Conjunction

/-!
How predicates without a query are refused.

A predicate that does not compile fails with an error that one of its leaves yields on its own.
Without merging this is the leftmost leaf that is not supported. With merging it may be a later
one, since all pairs of a chain are examined before any operand is lowered.

Owns:
- leaves that yield an error, and the place of one in a row of leaves;
- that the error of a refused predicate comes from a leaf;
- the kinds of errors there are, and that a pair that was found to merge is never found not to.

Does not own: the events that are reported on the way.
-/

namespace Facet

/-! ### Literals and comparisons -/

/-- A literal without a form in queries is refused as such. -/
theorem Literal.toJson_refused {literal : Literal} {context : String} {error : Error}
    (fails : literal.toJson context = .error error) :
    ∃ kind, error = .unsupportedLiteral kind context := by
  cases literal with
  | float value =>
      cases value with
      | finite _ _ _ => cases fails
      | _ =>
          cases fails
          exact ⟨_, rfl⟩
  | bytes _ | list _ =>
      cases fails
      exact ⟨_, rfl⟩
  | _ => cases fails

/-- A comparison with another literal than null fails with what its range fails with. -/
theorem Comparison.lower_refused_of_range {scope : Option Path} {comparison : Comparison}
    {error : Error} (valued : comparison.value.isNull = false)
    (fails : comparison.range scope = .error error) :
    comparison.lower scope = .error error := by
  unfold lower
  rw [valued, fails]
  rfl

namespace Predicate

variable {options : CompilerOptions} {scope : Option Path}

/-! ### Leaves that fail -/

/-- The outcome of lowering a part alone below a scope. -/
def Part.outcome (options : CompilerOptions) (scope : Option Path) : Part → Except Error Unit
  | .condition predicate => (fun _ => ()) <$> (predicate.lower options scope).outcome
  | .collection field => (fun _ => ()) <$> field.resolveWithin scope

/-- Lowered alone below its scope, a leaf yields an error. -/
def Leaf.FailsWith (options : CompilerOptions) (error : Error) (leaf : Leaf) : Prop :=
  ∃ scope, leaf.scope = .ok scope ∧ leaf.part.outcome options scope = .error error

theorem lower_eq_error_iff {predicate : Predicate} {error : Error} :
    (predicate.lower options scope).outcome = .error error ↔
      (lowered options scope predicate).outcome = .error error := by
  rw [lower, bind_pure_comp, Traced.outcome_map, Outcome.map_eq_error]

private theorem Leaf.failsWith_condition {predicate : Predicate} {error : Error}
    (fails : (lowered options scope predicate).outcome = .error error) :
    Leaf.FailsWith options error ⟨.ok scope, .condition predicate⟩ :=
  ⟨scope, rfl, Outcome.map_eq_error.mpr (lower_eq_error_iff.mpr fails)⟩

private theorem Leaf.failsWith_collection {field : FieldExpr} {error : Error}
    (fails : field.resolveWithin scope = .error error) :
    Leaf.FailsWith options error ⟨.ok scope, .collection field⟩ :=
  ⟨scope, rfl, Outcome.map_eq_error.mpr fails⟩

/-- A supported leaf is lowered alone below any scope. -/
theorem Part.outcome_of_isSupported {part : Part} (supported : part.IsSupported)
    (options : CompilerOptions) (scope : Option Path) : part.outcome options scope = .ok () := by
  cases part with
  | collection field =>
      obtain ⟨path, resolved⟩ := (FieldExpr.resolveWithin_succeeds_iff scope).mpr supported
      rw [outcome, resolved]
      rfl
  | condition predicate =>
      have condition : predicate.IsCondition := by
        cases predicate with
        | and _ _ | or _ _ | not _ | any _ _ => exact supported
        | _ => trivial
      obtain ⟨result, lowers⟩ := (lowers_condition_iff condition).mpr supported
      rw [outcome, lower_eq_ok_iff.mpr ⟨result, lowers, rfl⟩]
      rfl

private theorem Leaf.FailsWith.not_isSupported {leaf : Leaf} {error : Error}
    (fails : leaf.FailsWith options error) : ¬ leaf.part.IsSupported := by
  obtain ⟨scope, _, refused⟩ := fails
  intro supported
  rw [Part.outcome_of_isSupported supported] at refused
  cases refused

/-! ### Rows of leaves -/

/-- A row of leaves has one that yields an error, and without merging all leaves before it are
supported. -/
def FailsAt (options : CompilerOptions) (error : Error) (row : List Leaf) : Prop :=
  ∃ before leaf after, row = before ++ leaf :: after ∧ leaf.FailsWith options error ∧
    (options.mergeRanges = false → ∀ earlier ∈ before, earlier.part.IsSupported)

namespace FailsAt

variable {error : Error} {first second : List Leaf}

private theorem single {leaf : Leaf} (fails : leaf.FailsWith options error) (rest : List Leaf) :
    FailsAt options error (leaf :: rest) :=
  ⟨[], leaf, rest, rfl, fails, fun _ _ member => absurd member List.not_mem_nil⟩

private theorem before (fails : FailsAt options error first) (second : List Leaf) :
    FailsAt options error (first ++ second) := by
  obtain ⟨before, leaf, after, rfl, failing, earlier⟩ := fails
  exact ⟨before, leaf, after ++ second, by simp, failing, earlier⟩

private theorem after (fails : FailsAt options error second)
    (supported : options.mergeRanges = false → ∀ leaf ∈ first, leaf.part.IsSupported) :
    FailsAt options error (first ++ second) := by
  obtain ⟨before, leaf, after, rfl, failing, earlier⟩ := fails
  refine ⟨first ++ before, leaf, after, by simp, failing, fun disabled => ?_⟩
  exact List.forall_mem_append.mpr ⟨supported disabled, earlier disabled⟩

end FailsAt

/-- With merging turned off no pair is looked for. -/
theorem mergedPair_of_not_mergeRanges (disabled : options.mergeRanges = false)
    (scope : Option Path) (left right : Predicate) :
    mergedPair options scope left right = .ok none := by
  unfold mergedPair
  split
  · rw [disabled]
    rfl
  · rfl

theorem examine_of_not_mergeRanges (disabled : options.mergeRanges = false)
    (scope : Option Path) (predicate : Predicate) : examine options scope predicate = .ok () := by
  induction predicate with
  | and left right leftHypothesis rightHypothesis =>
      rw [examine, mergedPair_of_not_mergeRanges disabled, Outcome.ok_bind]
      simp only [leftHypothesis, rightHypothesis]
      rfl
  | _ => rfl

private theorem Leaf.failsWith_compare {comparison : Comparison} {error : Error}
    (refused : comparison.lower scope = .error error) :
    Leaf.FailsWith options error ⟨.ok scope, .condition (.compare comparison)⟩ := by
  refine Leaf.failsWith_condition ?_
  rw [lowered, Traced.outcome_bind, Traced.outcome_liftM, refused]
  rfl

/-- A comparison that fails is a leaf that fails. With merging the right one of two may fail
first. -/
theorem failsAt_of_compare {first second : Comparison} {error : Error}
    (enabled : options.mergeRanges ≠ false)
    (refused : first.lower scope = .error error ∨ second.lower scope = .error error) :
    FailsAt options error
      ((Predicate.and (.compare first) (.compare second)).leaves (.ok scope)) := by
  rcases refused with refused | refused
  · exact (FailsAt.single (Leaf.failsWith_compare refused) []).before _
  · exact (FailsAt.single (Leaf.failsWith_compare refused) []).after
      fun disabled => absurd disabled enabled

/-- Looking for a pair fails with what one of the two comparisons fails with. -/
theorem failsAt_of_mergedPair {left right : Predicate} {error : Error}
    (fails : mergedPair options scope left right = .error error) :
    FailsAt options error ((Predicate.and left right).leaves (.ok scope)) := by
  have enabled : options.mergeRanges ≠ false := by
    intro disabled
    rw [mergedPair_of_not_mergeRanges disabled] at fails
    cases fails
  obtain ⟨first, second, rfl, rfl, unresolved⟩ := mergedPair_refused fails
  exact failsAt_of_compare enabled
    (unresolved.imp Comparison.lower_refused_of_field Comparison.lower_refused_of_field)

/-- A pair fails to be lowered with what one of the two comparisons fails with. -/
theorem failsAt_of_merged {left right : Predicate} {lower upper : Comparison} {error : Error}
    (pair : mergedPair options scope left right = .ok (some (lower, upper)))
    (fails : (Comparison.merged scope lower upper).outcome = .error error) :
    FailsAt options error ((Predicate.and left right).leaves (.ok scope)) := by
  obtain ⟨rfl, rfl, enabled, merges⟩ := mergedPair_eq_some_iff.mp pair
  obtain ⟨opposite, _⟩ := Comparison.merges_eq_ok_true_iff.mp merges
  obtain ⟨lowerValued, upperValued, _⟩ := Comparison.areOpposite_iff.mp opposite
  have ranges : lower.range scope = .error error ∨ upper.range scope = .error error := by
    rcases Traced.bind_outcome_eq_error.mp fails with first | ⟨_, _, rest⟩
    · exact Or.inl first
    · rcases Traced.bind_outcome_eq_error.mp rest with second | ⟨_, _, reported⟩
      · exact Or.inr second
      · cases reported
  exact failsAt_of_compare (by simp [enabled])
    (ranges.imp (Comparison.lower_refused_of_range lowerValued)
      (Comparison.lower_refused_of_range upperValued))

/-- Examining a chain fails with what one of its leaves fails with. -/
theorem failsAt_of_examine {predicate : Predicate} {error : Error}
    (fails : examine options scope predicate = .error error) :
    FailsAt options error (predicate.leaves (.ok scope)) := by
  have enabled : options.mergeRanges ≠ false := by
    intro disabled
    rw [examine_of_not_mergeRanges disabled] at fails
    cases fails
  induction predicate with
  | and left right leftHypothesis rightHypothesis =>
      rcases Outcome.bind_eq_error.mp fails with pairFails | ⟨pair, _, rest⟩
      · exact failsAt_of_mergedPair pairFails
      · cases pair with
        | some _ => cases rest
        | none =>
            rcases Outcome.bind_eq_error.mp rest with leftFails | ⟨_, _, rightFails⟩
            · exact (leftHypothesis leftFails).before _
            · exact (rightHypothesis rightFails).after fun disabled => absurd disabled enabled
  | _ => cases fails

/-- **The error of a refused predicate.** It is one that a leaf yields on its own, and without
merging all leaves before this one are supported. -/
theorem failsAt_of_lowered {predicate : Predicate} {error : Error}
    (fails : (lowered options scope predicate).outcome = .error error) :
    FailsAt options error (predicate.leaves (.ok scope)) := by
  induction predicate generalizing scope with
  | and left right leftHypothesis rightHypothesis =>
      rcases Traced.bind_outcome_eq_error.mp fails with pairFails | ⟨pair, paired, rest⟩
      · exact failsAt_of_mergedPair pairFails
      · match pair with
        | some (_, _) =>
            exact failsAt_of_merged paired (Traced.bind_pure_outcome_eq_error.mp rest)
        | none =>
            -- Both sides are examined before one is lowered, so the right one can fail first.
            -- Without merging there is nothing to examine.
            have rightSide (fails : FailsAt options error (right.leaves (.ok scope)))
                (supported : options.mergeRanges = false →
                  ∀ leaf ∈ left.leaves (.ok scope), leaf.part.IsSupported) :
                FailsAt options error ((Predicate.and left right).leaves (.ok scope)) :=
              fails.after supported
            rcases Traced.bind_outcome_eq_error.mp rest with leftExamined | ⟨_, _, rest⟩
            · exact (failsAt_of_examine leftExamined).before _
            rcases Traced.bind_outcome_eq_error.mp rest with rightExamined | ⟨_, _, rest⟩
            · refine rightSide (failsAt_of_examine rightExamined) fun disabled => ?_
              rw [Traced.outcome_liftM, examine_of_not_mergeRanges disabled] at rightExamined
              cases rightExamined
            rcases Traced.bind_outcome_eq_error.mp rest with leftFails | ⟨_, leftLowered, rest⟩
            · exact (leftHypothesis leftFails).before _
            refine rightSide (rightHypothesis (Traced.bind_pure_outcome_eq_error.mp rest))
              fun _ => ?_
            exact lowers_iff_supported.mp ⟨_, lowers_of_lowered leftLowered⟩
  | or left right leftHypothesis rightHypothesis =>
      rcases Traced.bind_outcome_eq_error.mp fails with leftFails | ⟨_, leftLowered, rest⟩
      · exact (leftHypothesis leftFails).before _
      · refine (rightHypothesis (Traced.bind_pure_outcome_eq_error.mp rest)).after fun _ => ?_
        exact lowers_iff_supported.mp ⟨_, lowers_of_lowered leftLowered⟩
  | not inner innerHypothesis =>
      exact innerHypothesis (Traced.bind_pure_outcome_eq_error.mp fails)
  | any collection inner innerHypothesis =>
      rcases Traced.bind_outcome_eq_error.mp fails with unresolved | ⟨path, resolved, rest⟩
      · exact .single (Leaf.failsWith_collection unresolved) _
      · have supported : ∀ leaf ∈ [Leaf.mk (.ok scope) (.collection collection)],
            leaf.part.IsSupported := by
          rw [List.forall_mem_singleton]
          exact (FieldExpr.resolveWithin_succeeds_iff scope).mp ⟨path, resolved⟩
        rcases Traced.bind_outcome_eq_error.mp rest with innerFails | ⟨_, _, wrapped⟩
        · rw [leaves, Outcome.ok_bind, show collection.resolveWithin scope = .ok path from resolved]
          exact (innerHypothesis innerFails).after fun _ => supported
        · split at wrapped <;> cases wrapped
  | _ => exact .single (Leaf.failsWith_condition fails) []

/-! ### Kinds of errors -/

end Predicate

/-- The errors of predicates without a query: a field has no path, a literal has no form in
queries, a condition is called on something else than a named field, or a method has no query. -/
def Error.IsRefusal : Error → Prop
  | .unresolvableField _ => True
  | .unsupportedLiteral _ _ => True
  | .unsupportedPredicate (.notNamed _) => True
  | .unsupportedPredicate (.noQueryForm _ _) => True
  | _ => False

private theorem FieldExpr.isRefusal_of_resolveWithin {scope : Option Path} {field : FieldExpr}
    {error : Error} (fails : field.resolveWithin scope = .error error) : error.IsRefusal := by
  obtain ⟨_, rfl⟩ := resolve_refused (resolveWithin_eq_error_iff.mp fails)
  trivial

private theorem FieldExpr.isRefusal_of_wireWithin {scope : Option Path} {field : FieldExpr}
    {error : Error} (fails : field.wireWithin scope = .error error) : error.IsRefusal :=
  isRefusal_of_resolveWithin (Outcome.bind_pure_eq_error.mp fails)

private theorem Literal.isRefusal_of_toJson {literal : Literal} {context : String} {error : Error}
    (fails : literal.toJson context = .error error) : error.IsRefusal := by
  obtain ⟨_, rfl⟩ := toJson_refused fails
  trivial

private theorem Comparison.isRefusal_of_lower {scope : Option Path} {comparison : Comparison}
    {error : Error} (fails : comparison.lower scope = .error error) : error.IsRefusal := by
  unfold lower at fails
  split at fails
  · exact FieldExpr.isRefusal_of_wireWithin (Outcome.bind_pure_eq_error.mp fails)
  · have ranged := Outcome.bind_pure_eq_error.mp fails
    rcases Outcome.bind_eq_error.mp ranged with unresolved | ⟨_, _, rest⟩
    · exact FieldExpr.isRefusal_of_wireWithin unresolved
    · split at rest
      · cases rest
        trivial
      · exact Literal.isRefusal_of_toJson (Outcome.bind_pure_eq_error.mp rest)

namespace Predicate

private theorem isRefusal_of_lowerEquals {field : FieldExpr} {value : Literal} {error : Error}
    (fails : lowerEquals scope field value = .error error) : error.IsRefusal := by
  rcases Outcome.bind_eq_error.mp fails with unresolved | ⟨_, _, rest⟩
  · exact FieldExpr.isRefusal_of_wireWithin unresolved
  · split at rest
    · cases rest
    · exact Literal.isRefusal_of_toJson (Outcome.bind_pure_eq_error.mp rest)

private theorem isRefusal_of_condition {predicate : Predicate} (condition : predicate.IsCondition)
    {error : Error} (fails : (lowered options scope predicate).outcome = .error error) :
    error.IsRefusal := by
  cases predicate with
  | and _ _ | or _ _ | not _ | any _ _ => exact condition.elim
  | compare comparison =>
      exact Comparison.isRefusal_of_lower (Traced.bind_pure_outcome_eq_error.mp fails)
  | equals field value =>
      exact isRefusal_of_lowerEquals (Traced.bind_pure_outcome_eq_error.mp fails)
  | notEquals field value =>
      unfold lowered at fails
      split at fails
      · exact FieldExpr.isRefusal_of_wireWithin (Traced.bind_pure_outcome_eq_error.mp fails)
      · exact isRefusal_of_lowerEquals (Traced.bind_pure_outcome_eq_error.mp fails)
  | flag field | present field =>
      exact FieldExpr.isRefusal_of_wireWithin (Traced.bind_pure_outcome_eq_error.mp fails)
  | holds field =>
      unfold lowered at fails
      split at fails
      · exact FieldExpr.isRefusal_of_wireWithin (Traced.bind_pure_outcome_eq_error.mp fails)
      · cases fails
        trivial
  | call target method =>
      cases fails
      trivial

/-- The conditions among the leaves have no predicates in them. -/
theorem isCondition_of_mem_leaves {predicate condition : Predicate}
    {scope leafScope : Except Error (Option Path)}
    (member : ⟨leafScope, .condition condition⟩ ∈ predicate.leaves scope) :
    condition.IsCondition := by
  induction predicate generalizing scope with
  | and left right leftHypothesis rightHypothesis =>
      exact (List.mem_append.mp member).elim leftHypothesis rightHypothesis
  | or left right leftHypothesis rightHypothesis =>
      exact (List.mem_append.mp member).elim leftHypothesis rightHypothesis
  | not inner innerHypothesis => exact innerHypothesis member
  | any collection inner innerHypothesis =>
      rcases List.mem_cons.mp member with first | later
      · cases first
      · exact innerHypothesis later
  | _ =>
      cases List.mem_singleton.mp member
      trivial

/-- Every error of a predicate is of one of four kinds. -/
theorem isRefusal_of_lower {predicate : Predicate} {error : Error}
    (fails : (predicate.lower options scope).outcome = .error error) : error.IsRefusal := by
  obtain ⟨before, leaf, after, split, ⟨leafScope, _, failing⟩, _⟩ :=
    failsAt_of_lowered (lower_eq_error_iff.mp fails)
  have member : leaf ∈ predicate.leaves (.ok scope) := by
    rw [split]
    exact List.mem_append_right _ List.mem_cons_self
  obtain ⟨_, part⟩ := leaf
  cases part with
  | collection field =>
      exact FieldExpr.isRefusal_of_resolveWithin (Outcome.map_eq_error.mp failing)
  | condition condition =>
      have lowered := lower_eq_error_iff.mp (Outcome.map_eq_error.mp failing)
      exact isRefusal_of_condition (isCondition_of_mem_leaves member) lowered

private theorem unmergeable_not_isRefusal : ¬ unmergeable.IsRefusal := id

/-- **Which predicates compile, and how others fail.** A predicate compiles exactly if all of
its leaves are supported. If it fails, then with the error of an unsupported leaf, which without
merging is the leftmost one. A pair that was found to merge is never found not to. -/
theorem compile_accepts_iff_supported (options : CompilerOptions) (predicate : Predicate) :
    ((∃ query, (predicate.compile options).outcome = .ok query) ↔
        ∀ leaf ∈ predicate.leaves (.ok none), leaf.part.IsSupported) ∧
      (∀ error, (predicate.compile options).outcome = .error error →
        ∃ before leaf after, predicate.leaves (.ok none) = before ++ leaf :: after ∧
          ¬ leaf.part.IsSupported ∧ leaf.FailsWith options error ∧
          (options.mergeRanges = false → ∀ earlier ∈ before, earlier.part.IsSupported)) ∧
      (predicate.compile options).outcome ≠ .error unmergeable ∧
      ∀ scope left right,
        (lowerConjunction options scope left right).outcome ≠ .error unmergeable := by
  rw [compile_outcome]
  refine ⟨lower_succeeds_iff, fun error fails => ?_, fun fails => ?_,
    fun scope left right fails => ?_⟩
  · obtain ⟨before, leaf, after, split, failing, supported⟩ :=
      failsAt_of_lowered (lower_eq_error_iff.mp fails)
    exact ⟨before, leaf, after, split, failing.not_isSupported, failing, supported⟩
  · exact unmergeable_not_isRefusal (isRefusal_of_lower fails)
  · rw [← lower_and] at fails
    exact unmergeable_not_isRefusal (isRefusal_of_lower fails)

/-- With merging, the pair on the right is examined before the call on the left is refused. -/
example :
    let pair := Predicate.and (.compare ⟨.greater, .root, .integer 2⟩)
      (.compare ⟨.less, .root, .integer 6⟩)
    let predicate := Predicate.and (.call .root "IsOpen") pair
    (predicate.compile .standard).outcome = .error (.unresolvableField (.document "d")) ∧
      (predicate.compile .withoutMerging).outcome =
        .error (callFault .root "IsOpen") :=
  ⟨rfl, rfl⟩

end Predicate

end Facet
