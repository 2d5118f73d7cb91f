import Facet.Proofs.Field.Restating
import Facet.Proofs.Predicate.Outline
import Facet.Proofs.Predicate.Signature
import Facet.Proofs.Query.Acceptance

/-!
Predicates with restated fields.

Lowering and spelling come to the fields of a predicate only through their paths, and to the
requirement that a field called as a condition is named directly. So a predicate stays what it is
if other expressions are put in the place of its fields.

Owns:
- `Predicate.Restated`, predicates of one structure over restated fields;
- that these compile to the same query, and have the same signature;
- the predicate that names all its fields directly.

Does not own: predicates that do not compile, whose errors show the expressions.
-/

namespace Facet

namespace Predicate

/-! ### Restated fields -/

/-- The same predicate over other expressions for its fields, of the collections too. -/
inductive Restated : Predicate → Predicate → Prop where
  | and {left right left₂ right₂ : Predicate} (lefts : Restated left left₂)
      (rights : Restated right right₂) : Restated (.and left right) (.and left₂ right₂)
  | or {left right left₂ right₂ : Predicate} (lefts : Restated left left₂)
      (rights : Restated right right₂) : Restated (.or left right) (.or left₂ right₂)
  | not {inner inner₂ : Predicate} (inners : Restated inner inner₂) :
      Restated (.not inner) (.not inner₂)
  | compare {comparator : Comparator} {field field₂ : FieldExpr} {value : Literal}
      (fields : field.Restated field₂) :
      Restated (.compare ⟨comparator, field, value⟩) (.compare ⟨comparator, field₂, value⟩)
  | equals {field field₂ : FieldExpr} {value : Literal} (fields : field.Restated field₂) :
      Restated (.equals field value) (.equals field₂ value)
  | notEquals {field field₂ : FieldExpr} {value : Literal} (fields : field.Restated field₂) :
      Restated (.notEquals field value) (.notEquals field₂ value)
  | flag {field field₂ : FieldExpr} (fields : field.Restated field₂) :
      Restated (.flag field) (.flag field₂)
  | present {field field₂ : FieldExpr} (fields : field.Restated field₂) :
      Restated (.present field) (.present field₂)
  | holds {field field₂ : FieldExpr} (fields : field.Restated field₂) :
      Restated (.holds field) (.holds field₂)
  | any {collection collection₂ : FieldExpr} {inner inner₂ : Predicate}
      (collections : collection.Restated collection₂) (inners : Restated inner inner₂) :
      Restated (.any collection inner) (.any collection₂ inner₂)
  | call {target target₂ : FieldExpr} {method : String} (targets : target.Restated target₂) :
      Restated (.call target method) (.call target₂ method)

/-- The predicate with every field replaced, those of the collections too. -/
def mapFields (change : FieldExpr → FieldExpr) : Predicate → Predicate
  | .and left right => .and (left.mapFields change) (right.mapFields change)
  | .or left right => .or (left.mapFields change) (right.mapFields change)
  | .not inner => .not (inner.mapFields change)
  | .compare ⟨comparator, field, value⟩ => .compare ⟨comparator, change field, value⟩
  | .equals field value => .equals (change field) value
  | .notEquals field value => .notEquals (change field) value
  | .flag field => .flag (change field)
  | .present field => .present (change field)
  | .holds field => .holds (change field)
  | .any collection inner => .any (change collection) (inner.mapFields change)
  | .call target method => .call (change target) method

theorem mapFields_id (predicate : Predicate) : predicate.mapFields id = predicate := by
  induction predicate <;> simp_all [mapFields]

theorem restated_mapFields {change : FieldExpr → FieldExpr}
    (keeps : ∀ field : FieldExpr, field.Restated (change field)) (predicate : Predicate) :
    predicate.Restated (predicate.mapFields change) := by
  induction predicate with
  | and _ _ leftHypothesis rightHypothesis => exact .and leftHypothesis rightHypothesis
  | or _ _ leftHypothesis rightHypothesis => exact .or leftHypothesis rightHypothesis
  | not _ innerHypothesis => exact .not innerHypothesis
  | compare comparison => exact .compare (keeps comparison.field)
  | equals field _ => exact .equals (keeps field)
  | notEquals field _ => exact .notEquals (keeps field)
  | flag field => exact .flag (keeps field)
  | present field => exact .present (keeps field)
  | holds field => exact .holds (keeps field)
  | any collection _ innerHypothesis => exact .any (keeps collection) innerHypothesis
  | call target _ => exact .call (keeps target)

/-- The predicate with every field named directly. -/
def byWire (predicate : Predicate) : Predicate :=
  predicate.mapFields FieldExpr.byWire

theorem restated_byWire (predicate : Predicate) : predicate.Restated predicate.byWire :=
  restated_mapFields FieldExpr.restated_byWire predicate

end Predicate

/-! ### Comparisons -/

namespace Comparison

variable {comparator : Comparator} {field field₂ : FieldExpr} {value : Literal}

private theorem range_of_restated (fields : field.Restated field₂) (scope : Option Path) :
    range scope ⟨comparator, field₂, value⟩ = range scope ⟨comparator, field, value⟩ := by
  simp only [range, fields.wireWithin]

private theorem lower_of_restated (fields : field.Restated field₂) (scope : Option Path) :
    lower scope ⟨comparator, field₂, value⟩ = lower scope ⟨comparator, field, value⟩ := by
  simp only [lower, range_of_restated fields, fields.wireWithin]

/-- Whether comparisons merge depends on the texts of their fields. -/
theorem merges_of_restated {other : Comparator} {second second₂ : FieldExpr} {bound : Literal}
    (fields : field.Restated field₂) (seconds : second.Restated second₂) (scope : Option Path) :
    merges scope ⟨comparator, field₂, value⟩ ⟨other, second₂, bound⟩ =
      merges scope ⟨comparator, field, value⟩ ⟨other, second, bound⟩ := by
  have sides : areOpposite ⟨comparator, field₂, value⟩ ⟨other, second₂, bound⟩ =
      areOpposite ⟨comparator, field, value⟩ ⟨other, second, bound⟩ := rfl
  simp only [merges, sides, fields.wireWithin, seconds.wireWithin]

end Comparison

namespace Predicate

variable {options : CompilerOptions} {scope : Option Path}

/-! ### Queries -/

/-- Two comparisons that do not merge do not merge restated. -/
theorem mergedPair_eq_none_of_restated {left right left₂ right₂ : Predicate}
    (lefts : left.Restated left₂) (rights : right.Restated right₂)
    (pair : mergedPair options scope left right = .ok none) :
    mergedPair options scope left₂ right₂ = .ok none := by
  cases lefts with
  | compare fields =>
      cases rights with
      | compare seconds =>
          rw [mergedPair] at pair ⊢
          rw [Comparison.merges_of_restated fields seconds]
          split at pair
          · next enabled =>
              rw [if_pos enabled]
              obtain ⟨merges, looked, found⟩ := Outcome.bind_eq_ok.mp pair
              rw [looked]
              cases merges with
              | false => rfl
              | true => cases found
          · next disabled => rw [if_neg disabled]
      | _ => rfl
  | _ => rfl

private theorem lowerEquals_of_restated {field field₂ : FieldExpr} (fields : field.Restated field₂)
    (value : Literal) : lowerEquals scope field₂ value = lowerEquals scope field value := by
  simp only [lowerEquals, fields.wireWithin]

/-- A restated predicate is lowered in the same way. -/
theorem lowers_of_restated {predicate other : Predicate} {result : Lowered}
    (lowers : Lowers options scope predicate result) (restated : predicate.Restated other) :
    Lowers options scope other result := by
  induction lowers generalizing other with
  | merged pair lowerRanged upperRanged =>
      obtain ⟨rfl, rfl, enabled, merges⟩ := mergedPair_eq_some_iff.mp pair
      cases restated with
      | and lefts rights =>
          cases lefts with
          | compare fields =>
              cases rights with
              | compare seconds =>
                  rw [← Comparison.merges_of_restated fields seconds] at merges
                  rw [← Comparison.range_of_restated fields] at lowerRanged
                  rw [← Comparison.range_of_restated seconds] at upperRanged
                  exact .merged (mergedPair_eq_some_iff.mpr ⟨rfl, rfl, enabled, merges⟩)
                    lowerRanged upperRanged
  | chain pair _ _ _ _ leftHypothesis rightHypothesis =>
      cases restated with
      | and lefts rights =>
          have leftLowers := leftHypothesis lefts
          have rightLowers := rightHypothesis rights
          exact .chain (mergedPair_eq_none_of_restated lefts rights pair)
            (examine_of_lowers leftLowers) (examine_of_lowers rightLowers) leftLowers rightLowers
  | or _ _ leftHypothesis rightHypothesis =>
      cases restated with
      | or lefts rights => exact .or (leftHypothesis lefts) (rightHypothesis rights)
  | not _ innerHypothesis =>
      cases restated with
      | not inners => exact .not (innerHypothesis inners)
  | compare lowers =>
      cases restated with
      | compare fields => exact .compare ((Comparison.lower_of_restated fields _).trans lowers)
  | equals lowers =>
      cases restated with
      | equals fields => exact .equals ((lowerEquals_of_restated fields _).trans lowers)
  | notNull null resolved =>
      cases restated with
      | notEquals fields => exact .notNull null ((fields.wireWithin _).trans resolved)
  | notEquals valued lowers =>
      cases restated with
      | notEquals fields =>
          exact .notEquals valued ((lowerEquals_of_restated fields _).trans lowers)
  | flag resolved =>
      cases restated with
      | flag fields => exact .flag ((fields.wireWithin _).trans resolved)
  | present resolved =>
      cases restated with
      | present fields => exact .present ((fields.wireWithin _).trans resolved)
  | holds named resolved =>
      cases restated with
      | holds fields => exact .holds (fields.named named) ((fields.wireWithin _).trans resolved)
  | nested resolved isNested _ innerHypothesis =>
      cases restated with
      | any collections inners =>
          exact .nested ((collections.resolveWithin _).trans resolved) isNested
            (innerHypothesis inners)
  | inside resolved notNested _ innerHypothesis =>
      cases restated with
      | any collections inners =>
          exact .inside ((collections.resolveWithin _).trans resolved) notNested
            (innerHypothesis inners)

/-- A restated predicate compiles to the same query. -/
theorem compile_of_restated {predicate other : Predicate} {query : Query}
    (compiled : (predicate.compile options).outcome = .ok query)
    (restated : predicate.Restated other) : (other.compile options).outcome = .ok query := by
  obtain ⟨result, lowers, same⟩ := lowers_of_compile compiled
  rw [compile_outcome]
  exact lower_eq_ok_iff.mpr ⟨result, lowers_of_restated lowers restated, same⟩

/-! ### Signatures -/

private theorem Texts.of_restated {field field₂ : FieldExpr} {value : Literal} {wire text : String}
    (texts : Texts field value wire text) (fields : field.Restated field₂) :
    Texts field₂ value wire text :=
  ⟨fields.wire.trans texts.field, texts.value⟩

/-- A restated predicate has the same outline. -/
theorem outlines_of_restated {predicate other : Predicate} {outline : Outline}
    (outlines : Outlines predicate outline) (restated : predicate.Restated other) :
    Outlines other outline := by
  induction outlines generalizing other with
  | and _ _ leftHypothesis rightHypothesis =>
      cases restated with
      | and lefts rights => exact .and (leftHypothesis lefts) (rightHypothesis rights)
  | or _ _ leftHypothesis rightHypothesis =>
      cases restated with
      | or lefts rights => exact .or (leftHypothesis lefts) (rightHypothesis rights)
  | not _ innerHypothesis =>
      cases restated with
      | not inners => exact .not (innerHypothesis inners)
  | compare texts =>
      cases restated with
      | compare fields => exact .compare (texts.of_restated fields)
  | equals texts =>
      cases restated with
      | equals fields => exact .equals (texts.of_restated fields)
  | notEquals texts =>
      cases restated with
      | notEquals fields => exact .notEquals (texts.of_restated fields)
  | flag resolved =>
      cases restated with
      | flag fields => exact .flag (fields.wire.trans resolved)
  | holds resolved =>
      cases restated with
      | holds fields => exact .holds (fields.wire.trans resolved)
  | present resolved =>
      cases restated with
      | present fields => exact .present (fields.wire.trans resolved)
  | any resolved _ innerHypothesis =>
      cases restated with
      | any collections inners =>
          exact .any (collections.wire.trans resolved) (innerHypothesis inners)

theorem signature_of_restated {predicate other : Predicate} {signature : String}
    (signed : predicate.signature = .ok signature) (restated : predicate.Restated other) :
    other.signature = .ok signature := by
  obtain ⟨outline, outlines, spelled⟩ := signature_eq_ok_iff.mp signed
  exact signature_eq_ok_iff.mpr ⟨outline, outlines_of_restated outlines restated, spelled⟩

end Predicate

end Facet
