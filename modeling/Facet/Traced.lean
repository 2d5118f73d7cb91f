import Facet.Error
import Facet.Log.Event

/-!
Computations that report events and may fail. The events reported before a failure are kept.

Owns:
- the type, its monad, and that the monad is lawful;
- `emit`, `conclude`, and the passage from computations without events.
-/

namespace Facet

/-- An outcome with the events that were reported on the way, in order. -/
structure Traced (α : Type) where
  emissions : List Emission
  outcome : Except Error α

namespace Traced

section

variable {α β : Type}

/-- A computation that reports nothing. -/
def ofExcept (outcome : Except Error α) : Traced α :=
  ⟨[], outcome⟩

/-- Reports an event. -/
def emit (event : Event) (fields : List (String × String)) : Traced Unit :=
  ⟨[⟨event, fields⟩], .ok ()⟩

/-- Reports an event and fails. -/
def failWith (event : Event) (fields : List (String × String)) (error : Error) : Traced α :=
  ⟨[⟨event, fields⟩], .error error⟩

protected def bind (first : Traced α) (next : α → Traced β) : Traced β :=
  match first.outcome with
  | .ok value => ⟨first.emissions ++ (next value).emissions, (next value).outcome⟩
  | .error error => ⟨first.emissions, .error error⟩

/-- Reports one more event at the end, by the outcome. -/
def conclude (run : Traced α) (success : α → Emission) (failure : Error → Emission) :
    Traced α :=
  match run.outcome with
  | .ok value => ⟨run.emissions ++ [success value], run.outcome⟩
  | .error error => ⟨run.emissions ++ [failure error], run.outcome⟩

/-- Reports one more event if the computation fails. -/
def onFailure (run : Traced α) (failure : Error → Emission) : Traced α :=
  match run.outcome with
  | .ok _ => run
  | .error error => ⟨run.emissions ++ [failure error], run.outcome⟩

end

instance : Monad Traced where
  pure value := ofExcept (.ok value)
  bind := Traced.bind

instance : MonadLift (Except Error) Traced where
  monadLift := ofExcept

section

variable {α β : Type}

@[simp] theorem outcome_pure (value : α) : (pure value : Traced α).outcome = .ok value := rfl

@[simp] theorem emissions_pure (value : α) : (pure value : Traced α).emissions = [] := rfl

@[simp] theorem outcome_bind (first : Traced α) (next : α → Traced β) :
    (first >>= next).outcome = first.outcome >>= fun value => (next value).outcome := by
  show (Traced.bind first next).outcome = _
  unfold Traced.bind
  cases first.outcome <;> rfl

theorem emissions_bind (first : Traced α) (next : α → Traced β) :
    (first >>= next).emissions =
      first.emissions ++
        match first.outcome with
        | .ok value => (next value).emissions
        | .error _ => [] := by
  show (Traced.bind first next).emissions = _
  unfold Traced.bind
  cases first.outcome <;> simp

@[simp] theorem outcome_conclude (run : Traced α) (success : α → Emission)
    (failure : Error → Emission) : (run.conclude success failure).outcome = run.outcome := by
  unfold conclude
  split <;> rfl

theorem ext {left right : Traced α} (emissions : left.emissions = right.emissions)
    (outcome : left.outcome = right.outcome) : left = right := by
  cases left
  cases right
  simp_all

end

private theorem map_id_eq {α : Type} (run : Traced α) : id <$> run = run := by
  apply ext <;> cases outcome : run.outcome <;>
    simp [Functor.map, Traced.bind, ofExcept, outcome]

private theorem bind_of_pure {α β : Type} (value : α) (next : α → Traced β) :
    pure value >>= next = next value := by
  apply ext <;> simp [Bind.bind, Pure.pure, Traced.bind, ofExcept]

private theorem bind_bind {α β γ : Type} (first : Traced α) (second : α → Traced β)
    (third : β → Traced γ) :
    first >>= second >>= third = first >>= fun value => second value >>= third := by
  apply ext
  · cases outcome : first.outcome with
    | ok value =>
        cases next : (second value).outcome <;> simp [Bind.bind, Traced.bind, outcome, next]
    | error error => simp [Bind.bind, Traced.bind, outcome]
  · cases outcome : first.outcome with
    | ok value =>
        cases next : (second value).outcome <;> simp [Bind.bind, Traced.bind, outcome, next]
    | error error => simp [Bind.bind, Traced.bind, outcome]

instance : LawfulMonad Traced :=
  LawfulMonad.mk' Traced map_id_eq bind_of_pure bind_bind

end Traced

end Facet
