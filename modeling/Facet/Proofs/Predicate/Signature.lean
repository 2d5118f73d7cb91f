import Facet.Predicate.Signature
import Facet.Proofs.Field.Resolution
import Facet.Proofs.Query.Lowering

/-!
Which predicates have a signature.

Signatures are spelled below no scope, and queries are lowered below the path of a collection.
A field that resolves below a scope resolves without one, so whatever compiles has a name.

Owns:
- that fields and literals with a form in queries have one in signatures;
- that every compiled predicate has a signature.
-/

namespace Facet

/-! ### Fields and literals -/

namespace FieldExpr

private theorem wire_of_resolveWithin {scope : Option Path} {field : FieldExpr} {path : Path}
    (resolved : field.resolveWithin scope = .ok path) : ∃ wire, field.wire = .ok wire :=
  ((resolveWithin_succeeds_iff scope).mp ⟨path, resolved⟩).wire

private theorem wire_of_wireWithin {scope : Option Path} {field : FieldExpr} {below : String}
    (resolved : field.wireWithin scope = .ok below) : ∃ wire, field.wire = .ok wire :=
  ((wireWithin_succeeds_iff scope).mp ⟨below, resolved⟩).wire

end FieldExpr

/-- A literal with a form in queries has one in signatures. -/
theorem Literal.signatureText_of_toJson {literal : Literal} {context : String} {json : Json}
    (valued : literal.toJson context = .ok json) (other : String) :
    ∃ text, literal.signatureText other = .ok text := by
  cases literal with
  | bytes _ => cases valued
  | list _ => cases valued
  | _ => exact ⟨_, rfl⟩

private theorem Literal.signatureText_of_isNull {literal : Literal} (null : literal.isNull = true)
    (context : String) : ∃ text, literal.signatureText context = .ok text := by
  cases literal with
  | null => exact ⟨_, rfl⟩
  | _ => cases null

/-! ### Predicates -/

namespace Predicate

/-- An operation is spelled if its field and its literal are. -/
theorem operation_succeeds {field : FieldExpr} {value : Literal} {wire : String}
    (resolved : field.wire = .ok wire)
    (spelled : ∀ context, ∃ text, value.signatureText context = .ok text) (name : String) :
    ∃ text, operation field name value = .ok text := by
  obtain ⟨text, succeeds⟩ := spelled wire
  refine ⟨s!"{wire}_{name}_{text}", ?_⟩
  rw [operation, resolved, Outcome.ok_bind, succeeds]
  rfl

private theorem operation_of_range {scope : Option Path} {comparison : Comparison}
    {range : Query.Range} (ranged : comparison.range scope = .ok range) (name : String) :
    ∃ text, operation comparison.field name comparison.value = .ok text := by
  obtain ⟨_, _, _, resolved, _, valued, _⟩ := Comparison.range_eq_ok_iff.mp ranged
  obtain ⟨_, bare⟩ := FieldExpr.wire_of_wireWithin resolved
  exact operation_succeeds bare (Literal.signatureText_of_toJson valued) name

private theorem operation_of_lower {scope : Option Path} {comparison : Comparison} {query : Query}
    (lowers : comparison.lower scope = .ok query) (name : String) :
    ∃ text, operation comparison.field name comparison.value = .ok text := by
  rcases Comparison.lower_eq_ok_iff.mp lowers with ⟨null, _, _, resolved⟩ | ⟨_, _, ranged, _⟩
  · obtain ⟨_, bare⟩ := FieldExpr.wire_of_wireWithin resolved
    exact operation_succeeds bare (Literal.signatureText_of_isNull null) name
  · exact operation_of_range ranged name

private theorem operation_of_lowerEquals {scope : Option Path} {field : FieldExpr} {value : Literal}
    {query : Query} (lowers : lowerEquals scope field value = .ok query) (name : String) :
    ∃ text, operation field name value = .ok text := by
  simp only [lowerEquals, Outcome.bind_eq_ok] at lowers
  obtain ⟨_, resolved, rest⟩ := lowers
  obtain ⟨_, bare⟩ := FieldExpr.wire_of_wireWithin resolved
  cases null : value.isNull with
  | true => exact operation_succeeds bare (Literal.signatureText_of_isNull null) name
  | false =>
      simp only [null, Bool.false_eq_true, if_false, Outcome.bind_eq_ok] at rest
      obtain ⟨_, valued, _⟩ := rest
      exact operation_succeeds bare (Literal.signatureText_of_toJson valued) name

/-- Whatever is lowered can be spelled. -/
theorem spelling_of_lowers {options : CompilerOptions} {scope : Option Path}
    {predicate : Predicate} {result : Lowered}
    (lowers : Lowers options scope predicate result) :
    ∃ text, predicate.spelling = .ok text := by
  induction lowers with
  | merged pair lowerRanged upperRanged =>
      obtain ⟨rfl, rfl, _, _⟩ := mergedPair_eq_some_iff.mp pair
      obtain ⟨_, left⟩ := operation_of_range lowerRanged _
      obtain ⟨_, right⟩ := operation_of_range upperRanged _
      exact ⟨_, by rw [spelling, spelling, left, Outcome.ok_bind, spelling, right]; rfl⟩
  | chain _ _ _ _ _ leftHypothesis rightHypothesis
  | or _ _ leftHypothesis rightHypothesis =>
      obtain ⟨_, left⟩ := leftHypothesis
      obtain ⟨_, right⟩ := rightHypothesis
      exact ⟨_, by rw [spelling, left, Outcome.ok_bind, right]; rfl⟩
  | not _ innerHypothesis =>
      obtain ⟨_, inner⟩ := innerHypothesis
      exact ⟨_, by rw [spelling, inner]; rfl⟩
  | compare lowers => exact operation_of_lower lowers _
  | equals lowers => exact operation_of_lowerEquals lowers _
  | notNull null resolved =>
      obtain ⟨_, bare⟩ := FieldExpr.wire_of_wireWithin resolved
      exact operation_succeeds bare (Literal.signatureText_of_isNull null) _
  | notEquals _ lowers => exact operation_of_lowerEquals lowers _
  | flag resolved => exact FieldExpr.wire_of_wireWithin resolved
  | present resolved =>
      obtain ⟨_, bare⟩ := FieldExpr.wire_of_wireWithin resolved
      exact ⟨_, by rw [spelling, bare]; rfl⟩
  | holds _ resolved => exact FieldExpr.wire_of_wireWithin resolved
  | nested resolved _ _ innerHypothesis | inside resolved _ _ innerHypothesis =>
      obtain ⟨_, bare⟩ := FieldExpr.wire_of_resolveWithin resolved
      obtain ⟨_, inner⟩ := innerHypothesis
      exact ⟨_, by rw [spelling, bare, Outcome.ok_bind, inner]; rfl⟩

/-- Whatever compiles has a signature. -/
theorem signature_of_compile {options : CompilerOptions} {predicate : Predicate}
    {query : Query} (compiled : (predicate.compile options).outcome = .ok query) :
    ∃ signature, predicate.signature = .ok signature := by
  obtain ⟨_, lowers, _⟩ := lowers_of_compile compiled
  obtain ⟨text, spelled⟩ := spelling_of_lowers lowers
  refine ⟨sanitize text, ?_⟩
  rw [signature, spelled]
  rfl

end Predicate

end Facet
