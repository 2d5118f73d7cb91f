import Facet.Proofs.Outcome

/-!
Computations that go the way of others.

A computation follows another if it succeeds where the other does, with a value that is computed
from the other's value, and fails where the other does, with an error of the same kind. With
events, it also reports the other's events, each of them changed alike.

Owns:
- following, for outcomes and for computations with events;
- that sequences follow sequences whose parts they follow.
-/

namespace Facet

variable {α β γ δ : Type}

/-- An outcome follows another: its value is computed from the other's value, and its error is of
the same kind. -/
inductive Outcome.Follows (change : α → β) : Except Error α → Except Error β → Prop where
  | ok (value : α) : Follows change (.ok value) (.ok (change value))
  | error {first second : Error} (sameCode : second.code = first.code) :
      Follows change (.error first) (.error second)

namespace Outcome.Follows

variable {change : α → β} {first : Except Error α} {second : Except Error β}

theorem of_map (outcome : Except Error α) (change : α → β) :
    Follows change outcome (change <$> outcome) := by
  cases outcome with
  | ok value => exact .ok value
  | error error => exact .error rfl

theorem refl (outcome : Except Error α) : Follows id outcome outcome := by
  have mapped := of_map outcome id
  rw [id_map] at mapped
  exact mapped

theorem bind {further : γ → δ} {next : α → Except Error γ} {following : β → Except Error δ}
    (starts : Follows change first second)
    (goesOn : ∀ value, Follows further (next value) (following (change value))) :
    Follows further (first >>= next) (second >>= following) := by
  cases starts with
  | ok value => exact goesOn value
  | error sameCode => exact .error sameCode

theorem eq_ok (follows : Follows change first second) {value : α} (succeeds : first = .ok value) :
    second = .ok (change value) := by
  cases follows with
  | ok other =>
      cases succeeds
      rfl
  | error _ => cases succeeds

theorem exists_error (follows : Follows change first second) {error : Error}
    (fails : first = .error error) : ∃ other, second = .error other ∧ other.code = error.code := by
  cases follows with
  | ok _ => cases fails
  | error sameCode =>
      cases fails
      exact ⟨_, rfl, sameCode⟩

end Outcome.Follows

/-- A computation with events follows another: its outcome does, and it reports the events of the
other, each of them changed. -/
structure Traced.Follows (events : Emission → Emission) (change : α → β) (first : Traced α)
    (second : Traced β) : Prop where
  emissions : second.emissions = first.emissions.map events
  outcome : Outcome.Follows change first.outcome second.outcome

namespace Traced.Follows

variable {events : Emission → Emission} {change : α → β} {first : Traced α} {second : Traced β}

theorem pure (value : α) (change : α → β) :
    Follows events change (Pure.pure value) (Pure.pure (change value)) :=
  ⟨rfl, .ok value⟩

theorem liftM {before : Except Error α} {after : Except Error β}
    (follows : Outcome.Follows change before after) :
    Follows events change (MonadLiftT.monadLift before) (MonadLiftT.monadLift after) :=
  ⟨rfl, follows⟩

theorem bind {further : γ → δ} {next : α → Traced γ} {following : β → Traced δ}
    (starts : Follows events change first second)
    (goesOn : ∀ value, Follows events further (next value) (following (change value))) :
    Follows events further (first >>= next) (second >>= following) := by
  obtain ⟨emissions, outcome⟩ := starts
  constructor
  · rw [emissions_bind, emissions_bind, emissions]
    cases firstOutcome : first.outcome with
    | ok value =>
        rw [outcome.eq_ok firstOutcome, List.map_append]
        exact congrArg (_ ++ ·) (goesOn value).emissions
    | error error =>
        obtain ⟨other, failed, _⟩ := outcome.exists_error firstOutcome
        rw [failed, List.append_nil, List.append_nil]
  · rw [outcome_bind, outcome_bind]
    exact outcome.bind fun value => (goesOn value).outcome

end Traced.Follows

end Facet
