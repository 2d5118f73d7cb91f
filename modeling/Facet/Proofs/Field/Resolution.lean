import Facet.Field.Resolution
import Facet.Proofs.Outcome

/-!
Which field expressions have a path.

Owns:
- `FieldExpr.Resolves`, that an expression has a path;
- that a scope in front of the path decides nothing: neither whether there is one, nor the
  error if there is none;
- that every such error says that the expression is no field.
-/

namespace Facet

/-! ### Faults of expressions -/

mutual

/-- A string expression without a value is refused as a field. -/
theorem StringExpr.constant_refused {error : Error} :
    ∀ {name : StringExpr}, name.constant = .error error →
      ∃ fault, error = .unresolvableField fault
  | .literal _, fails => by cases fails
  | .concat parts, fails => StringExpr.constantParts_refused fails
  | .runtime name, fails => by
      cases fails
      exact ⟨.notConstant name, rfl⟩

private theorem StringExpr.constantParts_refused {error : Error} :
    ∀ {parts : List StringExpr}, StringExpr.constantParts parts = .error error →
      ∃ fault, error = .unresolvableField fault
  | [], fails => by cases fails
  | part :: parts, fails => by
      rcases Outcome.bind_eq_error.mp fails with first | ⟨_, _, later⟩
      · exact StringExpr.constant_refused first
      · exact StringExpr.constantParts_refused (Outcome.bind_pure_eq_error.mp later)

end

/-- Segments that make no path are refused as a field. -/
theorem Path.ofSegments_refused {segments : List String} {error : Error}
    (fails : Path.ofSegments segments = .error error) :
    ∃ fault, error = .unresolvableField fault := by
  unfold Path.ofSegments at fails
  split at fails
  · cases fails
    exact ⟨.emptyPath, rfl⟩
  · split at fails
    · next bad _ =>
        cases fails
        exact ⟨.invalidSegment bad, rfl⟩
    · cases fails

namespace FieldExpr

private theorem segments_refused {whole field : FieldExpr} {error : Error}
    (fails : segments whole field = .error error) :
    ∃ fault, error = .unresolvableField fault := by
  induction field with
  | root =>
      cases fails
      exact ⟨_, rfl⟩
  | call _ _ _ =>
      cases fails
      exact ⟨_, rfl⟩
  | constant _ =>
      cases fails
      exact ⟨_, rfl⟩
  | member target name targetHypothesis =>
      unfold segments at fails
      split at fails
      · cases fails
      · exact targetHypothesis (Outcome.bind_pure_eq_error.mp fails)
  | named target name targetHypothesis =>
      unfold segments at fails
      split at fails
      · rcases Outcome.bind_eq_error.mp fails with outer | ⟨_, _, inner⟩
        · cases outer
        · exact StringExpr.constant_refused (Outcome.bind_pure_eq_error.mp inner)
      · rcases Outcome.bind_eq_error.mp fails with outer | ⟨_, _, inner⟩
        · exact targetHypothesis outer
        · exact StringExpr.constant_refused (Outcome.bind_pure_eq_error.mp inner)

/-- An expression without a path is refused as a field. -/
theorem resolve_refused {field : FieldExpr} {error : Error}
    (fails : field.resolve = .error error) : ∃ fault, error = .unresolvableField fault := by
  rcases Outcome.bind_eq_error.mp fails with segmented | ⟨_, _, pathed⟩
  · exact segments_refused segmented
  · exact Path.ofSegments_refused pathed

/-! ### Expressions with a path -/

/-- The field has a path. -/
def Resolves (field : FieldExpr) : Prop :=
  ∃ path, field.resolve = .ok path

theorem Resolves.wire {field : FieldExpr} (resolves : field.Resolves) :
    ∃ wire, field.wire = .ok wire := by
  obtain ⟨path, resolved⟩ := resolves
  refine ⟨path.wire, ?_⟩
  rw [FieldExpr.wire, resolved]
  rfl

/-- A scope is put in front of a path that there is anyway. -/
theorem resolveWithin_succeeds_iff (scope : Option Path) {field : FieldExpr} :
    (∃ path, field.resolveWithin scope = .ok path) ↔ field.Resolves := by
  constructor
  · rintro ⟨_, succeeds⟩
    obtain ⟨path, resolved, _⟩ := Outcome.bind_eq_ok.mp succeeds
    exact ⟨path, resolved⟩
  · rintro ⟨path, resolved⟩
    exact ⟨path.within scope, Outcome.bind_eq_ok.mpr ⟨path, resolved, rfl⟩⟩

theorem wireWithin_succeeds_iff (scope : Option Path) {field : FieldExpr} :
    (∃ wire, field.wireWithin scope = .ok wire) ↔ field.Resolves := by
  rw [← resolveWithin_succeeds_iff scope]
  constructor
  · rintro ⟨_, succeeds⟩
    obtain ⟨path, resolved, _⟩ := Outcome.bind_eq_ok.mp succeeds
    exact ⟨path, resolved⟩
  · rintro ⟨path, resolved⟩
    exact ⟨path.wire, Outcome.bind_eq_ok.mpr ⟨path, resolved, rfl⟩⟩

theorem resolveWithin_eq_error_iff {scope : Option Path} {field : FieldExpr} {error : Error} :
    field.resolveWithin scope = .error error ↔ field.resolve = .error error :=
  Outcome.bind_pure_eq_error

end FieldExpr

end Facet
