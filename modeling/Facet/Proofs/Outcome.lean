import Facet.Traced

/-!
Inversion of computations that may fail.

Owns:
- when a sequence of two computations succeeds or fails, for outcomes alone and for outcomes
  with events;
- the outcome of a computation that is passed on without events;
- computations that give what was found, and fail if nothing was.
-/

namespace Facet

variable {α β : Type}

namespace Outcome

/-- A sequence succeeds exactly if both of its parts do. -/
theorem bind_eq_ok {first : Except Error α} {next : α → Except Error β} {result : β} :
    first >>= next = .ok result ↔ ∃ value, first = .ok value ∧ next value = .ok result := by
  cases first with
  | ok value =>
      constructor
      · intro succeeds
        exact ⟨value, rfl, succeeds⟩
      · rintro ⟨_, same, succeeds⟩
        cases same
        exact succeeds
  | error error =>
      constructor
      · intro succeeds
        cases succeeds
      · rintro ⟨_, same, _⟩
        cases same

theorem pure_eq_ok {value result : α} :
    (pure value : Except Error α) = .ok result ↔ value = result := by
  constructor
  · intro same
    cases same
    rfl
  · rintro rfl
    rfl

@[simp] theorem ok_bind (value : α) (next : α → Except Error β) :
    (Except.ok value >>= next : Except Error β) = next value := rfl

@[simp] theorem ok_map (change : α → β) (value : α) :
    change <$> (Except.ok value : Except Error α) = .ok (change value) := rfl

theorem map_eq_ok {change : α → β} {outcome : Except Error α} {result : β} :
    change <$> outcome = .ok result ↔ ∃ value, outcome = .ok value ∧ change value = result := by
  cases outcome with
  | ok value =>
      constructor
      · intro succeeds
        cases succeeds
        exact ⟨value, rfl, rfl⟩
      · rintro ⟨_, same, rfl⟩
        cases same
        rfl
  | error error =>
      constructor
      · intro succeeds
        cases succeeds
      · rintro ⟨_, same, _⟩
        cases same

/-- A sequence fails if one of its parts does, the first one before the second. -/
theorem bind_eq_error {first : Except Error α} {next : α → Except Error β} {error : Error} :
    first >>= next = .error error ↔
      first = .error error ∨ ∃ value, first = .ok value ∧ next value = .error error := by
  cases first with
  | ok value =>
      constructor
      · intro fails
        exact Or.inr ⟨value, rfl, fails⟩
      · rintro (fails | ⟨_, same, fails⟩)
        · cases fails
        · cases same
          exact fails
  | error other =>
      constructor
      · intro fails
        cases fails
        exact Or.inl rfl
      · rintro (fails | ⟨_, same, _⟩)
        · cases fails
          rfl
        · cases same

theorem map_eq_error {change : α → β} {outcome : Except Error α} {error : Error} :
    change <$> outcome = .error error ↔ outcome = .error error := by
  cases outcome with
  | ok value =>
      constructor
      · intro fails
        cases fails
      · intro fails
        cases fails
  | error other =>
      constructor
      · intro fails
        cases fails
        rfl
      · intro fails
        cases fails
        rfl

/-- What is done with a result has no part in a failure. -/
theorem bind_pure_eq_error {outcome : Except Error α} {change : α → β} {error : Error} :
    (do return change (← outcome)) = Except.error error ↔ outcome = .error error := by
  rw [bind_pure_comp]
  exact map_eq_error

end Outcome

namespace Traced

@[simp] theorem outcome_liftM (outcome : Except Error α) :
    (liftM outcome : Traced α).outcome = outcome := rfl

@[simp] theorem outcome_ofExcept (outcome : Except Error α) :
    (ofExcept outcome).outcome = outcome := rfl

@[simp] theorem outcome_map (change : α → β) (run : Traced α) :
    (change <$> run).outcome = change <$> run.outcome := by
  rw [← bind_pure_comp, outcome_bind]
  cases run.outcome <;> rfl

@[simp] theorem outcome_emit (event : Event) (fields : List (String × String)) :
    (emit event fields).outcome = .ok () := rfl

/-- The outcome of a row of computations is that of the row of their outcomes. -/
theorem outcome_mapM (run : α → Traced β) (row : List α) :
    (row.mapM run).outcome = row.mapM fun value => (run value).outcome := by
  induction row with
  | nil => rfl
  | cons value rest inductionHypothesis =>
      simp only [List.mapM_cons, outcome_bind, outcome_pure, inductionHypothesis]
      rfl

/-- What has succeeded is passed on as it is. -/
theorem liftM_of_ok {outcome : Except Error α} {value : α} (succeeds : outcome = .ok value) :
    (liftM outcome : Traced α) = pure value := by
  rw [succeeds]
  rfl

/-- A sequence of computations with events succeeds exactly if both of its parts do. -/
theorem bind_outcome_eq_ok {first : Traced α} {next : α → Traced β} {result : β} :
    (first >>= next).outcome = .ok result ↔
      ∃ value, first.outcome = .ok value ∧ (next value).outcome = .ok result := by
  rw [outcome_bind, Outcome.bind_eq_ok]

/-- A sequence of computations with events fails if one of its parts does. -/
theorem bind_outcome_eq_error {first : Traced α} {next : α → Traced β} {error : Error} :
    (first >>= next).outcome = .error error ↔
      first.outcome = .error error ∨
        ∃ value, first.outcome = .ok value ∧ (next value).outcome = .error error := by
  rw [outcome_bind, Outcome.bind_eq_error]

theorem bind_pure_outcome_eq_ok {run : Traced α} {change : α → β} {result : β} :
    (do return change (← run)).outcome = Except.ok result ↔
      ∃ value, run.outcome = .ok value ∧ change value = result := by
  rw [bind_pure_comp, outcome_map]
  exact Outcome.map_eq_ok

theorem bind_pure_outcome_eq_error {run : Traced α} {change : α → β} {error : Error} :
    (do return change (← run)).outcome = Except.error error ↔ run.outcome = .error error := by
  rw [bind_pure_comp, outcome_map]
  exact Outcome.map_eq_error

/-! ### What was found, or a failure -/

section

variable {found : Option α} {event : Event} {fields : List (String × String)} {failure : Error}

theorem elim_eq_ok_iff {value : α} :
    (found.elim (failWith event fields failure) pure).outcome = .ok value ↔
      found = some value := by
  cases found with
  | some _ => rw [Option.elim_some, outcome_pure, Except.ok.injEq, Option.some.injEq]
  | none => exact iff_of_false nofun nofun

theorem elim_eq_error_iff {error : Error} :
    (found.elim (failWith event fields failure) pure).outcome = .error error ↔
      found = none ∧ error = failure := by
  cases found with
  | some _ => exact iff_of_false nofun nofun
  | none =>
      rw [Option.elim_none, failWith, Except.error.injEq, eq_comm]
      exact (and_iff_right rfl).symm

/-- If it is known exactly what is found, the computation gives just that, and fails in one way
wherever there is nothing to be found. -/
theorem elim_outcome_of_iff {IsFound : α → Prop}
    (exactly : ∀ value, found = some value ↔ IsFound value) :
    let run := found.elim (failWith event fields failure) pure
    (∀ value, run.outcome = .ok value ↔ IsFound value) ∧
      ∀ error, run.outcome = .error error ↔ (¬∃ value, IsFound value) ∧ error = failure := by
  intro run
  have nothing : found = none ↔ ¬∃ value, IsFound value := by
    rw [Option.eq_none_iff_forall_ne_some, not_exists]
    exact forall_congr' fun value => not_congr (exactly value)
  constructor
  · intro value
    exact elim_eq_ok_iff.trans (exactly value)
  · intro error
    exact elim_eq_error_iff.trans (and_congr_left' nothing)

end

end Traced

end Facet
