import Facet.Proofs.Double.Exact
import Facet.Proofs.Outcome
import Facet.Result.Reading

/-!
Integers from the values of metrics.

Owns:
- what conversion makes of a value, by what the reader makes of it;
- that integers are converted exactly or refused, for every width, and that null alone is no
  value.

Does not own: floating-point numbers and decimals, which are rounded.
-/

namespace Facet

namespace ValueReader

variable {α : Type} {reader : ValueReader α} {name : String} {value : Json}

/-! ### Conversion -/

/-- A value that is refused is shown in the error, with what it was asked for as. -/
theorem convert_eq : reader.convert name value =
    (reader.read value).elim (.refuse name value.render reader.target) pure := by
  rw [convert]
  cases reader.read value <;> rfl

theorem convert_eq_ok_iff {converted : α} :
    (reader.convert name value).outcome = .ok converted ↔ reader.read value = some converted := by
  rw [convert_eq]
  exact Traced.elim_eq_ok_iff

theorem convert_eq_error_iff {error : Error} :
    (reader.convert name value).outcome = .error error ↔
      reader.read value = none ∧ error = .coercion name value.render reader.target := by
  rw [convert_eq]
  exact Traced.elim_eq_error_iff

/-- If it is known exactly what a value is read as, conversion gives just that, and refuses the
value wherever it is nothing. -/
theorem convert_outcome_of_iff (name : String) {IsRead : α → Prop}
    (exactly : ∀ converted, reader.read value = some converted ↔ IsRead converted) :
    let run := reader.convert name value
    (∀ converted, run.outcome = .ok converted ↔ IsRead converted) ∧
      ∀ error, run.outcome = .error error ↔
        (¬∃ converted, IsRead converted) ∧
          error = .coercion name value.render reader.target := by
  rw [convert_eq]
  exact Traced.elim_outcome_of_iff exactly

/-! ### Optional values -/

private theorem optional_read_of_ne_null (valued : value ≠ .null) :
    reader.optional.read value = (reader.read value).map some := by
  cases value with
  | null => exact absurd rfl valued
  | _ => rfl

/-- An optional value is none exactly for null. -/
theorem optional_convert_eq_ok_none_iff :
    (reader.optional.convert name value).outcome = .ok none ↔ value = .null := by
  rw [convert_eq_ok_iff]
  constructor
  · intro nothing
    by_contra valued
    rw [optional_read_of_ne_null valued] at nothing
    obtain ⟨_, _, absurdity⟩ := Option.map_eq_some_iff.mp nothing
    cases absurdity
  · intro null
    rw [null]
    rfl

/-- Of a reader that refuses null, what the optional reader gives is what the reader gives. -/
theorem optional_convert_eq_ok_some_iff (refusesNull : reader.read .null = none) {converted : α} :
    (reader.optional.convert name value).outcome = .ok (some converted) ↔
      (reader.convert name value).outcome = .ok converted := by
  rw [convert_eq_ok_iff, convert_eq_ok_iff]
  by_cases valued : value = .null
  · rw [valued, refusesNull]
    exact iff_of_false nofun nofun
  · rw [optional_read_of_ne_null valued]
    simp

/-- The optional reader refuses what the reader refuses, save null. -/
theorem optional_convert_eq_error_iff {error : Error} :
    (reader.optional.convert name value).outcome = .error error ↔
      value ≠ .null ∧ (reader.convert name value).outcome = .error error := by
  rw [convert_eq_error_iff, convert_eq_error_iff]
  by_cases valued : value = .null
  · rw [valued]
    exact iff_of_false nofun nofun
  · rw [optional_read_of_ne_null valued, Option.map_eq_none_iff]
    exact (and_iff_right valued).symm

/-! ### Integers -/

/-- A value is read as an integer exactly if that is its value and the width holds it. -/
theorem integer_read_eq_some_iff {type : IntegerType} {whole : Int} :
    (integer type).read value = some whole ↔
      value.toRat? = some (whole : ℚ) ∧ type.Holds whole := by
  cases value with
  | number number =>
      cases number with
      | integer stored =>
          change type.check? stored = some whole ↔
            some (stored : ℚ) = some (whole : ℚ) ∧ type.Holds whole
          rw [IntegerType.check?_eq_some_iff, Option.some.injEq, Int.cast_inj]
      | double stored =>
          change stored.toInt?.bind type.check? = some whole ↔
            stored.toRat? = some (whole : ℚ) ∧ type.Holds whole
          rw [Option.bind_eq_some_iff, ← Double.toInt?_eq_some_iff]
          constructor
          · intro ⟨found, read, checked⟩
            obtain ⟨rfl, holds⟩ := IntegerType.check?_eq_some_iff.mp checked
            exact ⟨read, holds⟩
          · intro ⟨read, holds⟩
            exact ⟨whole, read, IntegerType.check?_eq_some_iff.mpr ⟨rfl, holds⟩⟩
  | _ => exact iff_of_false nofun nofun

/-- **Integers are converted exactly or not at all.** A value converts to an integer of a width
exactly if it is a number, that integer is its exact value, and the width holds the integer. Every
other value is refused as a failed conversion: a fraction, a number out of range by however
little, null, and whatever is no number. An optional integer is none exactly for null, and
otherwise converts and is refused as the integer would be. -/
theorem integer_converts_exactly (type : IntegerType) (name : String) (value : Json) :
    let run := (integer type).convert name value
    let optionally := (integer type).optional.convert name value
    (∀ whole : Int, run.outcome = .ok whole ↔
        value.toRat? = some (whole : ℚ) ∧ type.Holds whole) ∧
      (∀ error, run.outcome = .error error ↔
        (¬∃ whole : Int, value.toRat? = some (whole : ℚ) ∧ type.Holds whole) ∧
          error = .coercion name value.render type.name) ∧
      (optionally.outcome = .ok none ↔ value = .null) ∧
      (∀ whole, optionally.outcome = .ok (some whole) ↔ run.outcome = .ok whole) ∧
      (∀ error, optionally.outcome = .error error ↔
        value ≠ .null ∧ run.outcome = .error error) := by
  intro run optionally
  have exactly (whole : Int) : (integer type).read value = some whole ↔
      value.toRat? = some (whole : ℚ) ∧ type.Holds whole := integer_read_eq_some_iff
  have refusesNull : (integer type).read .null = none := rfl
  obtain ⟨gives, refuses⟩ := convert_outcome_of_iff name exactly
  refine ⟨gives, refuses, optional_convert_eq_ok_none_iff, ?_, ?_⟩
  · intro whole
    exact optional_convert_eq_ok_some_iff refusesNull
  · intro error
    exact optional_convert_eq_error_iff

/-- The largest double below 2^63 is an integer of 64 bits with a sign, and 2^63 is one only
without. The next power of two is neither. -/
example :
    let below : Double := .finite false 1085 (Fin.last _)
    let at63 : Double := .finite false 1086 0
    let at64 : Double := .finite false 1087 0
    let read (type : IntegerType) (value : Double) : Option Int :=
      (integer type).read (.number (.double value))
    read .signed64 below = some 9223372036854774784 ∧ read .signed64 at63 = none ∧
      read .unsigned64 at63 = some 9223372036854775808 ∧ read .unsigned64 at64 = none := by
  decide

end ValueReader

end Facet
