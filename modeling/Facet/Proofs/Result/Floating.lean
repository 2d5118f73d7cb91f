import Facet.Proofs.Double.Range
import Facet.Proofs.Result.Value

/-!
Floating-point values from the values of metrics.

A response holds integers of 64 bits and finite doubles. All of them have their place among the
doubles, but a double can lie beyond the numbers of 32 bits. There the reader gives infinity, where
the integer readers would refuse a number out of their range.

Owns:
- the numbers that a response holds;
- a number as the quotient that is rounded;
- that every number converts to a finite double, and to a finite number of 32 bits exactly below
  the limit of that format.

Does not own: integers and decimals.
-/

namespace Facet

namespace Number

/-- The numbers that a response holds: integers of 64 bits, with or without a sign, and doubles. -/
def IsStored : Number → Prop
  | .integer value => IntegerType.signed64.Holds value ∨ IntegerType.unsigned64.Holds value
  | .double _ => True

/-- An integer that a response holds is far below the limit of doubles. -/
theorem natAbs_lt_limit {value : Int} (stored : IsStored (.integer value)) :
    (value.natAbs : ℚ) < Format.binary64.limit := by
  have small : value.natAbs ≤ 2 ^ 64 := by
    have signed : IntegerType.signed64.Holds value ↔ -2 ^ 63 ≤ value ∧ value ≤ 2 ^ 63 - 1 :=
      Iff.rfl
    have unsigned : IntegerType.unsigned64.Holds value ↔ 0 ≤ value ∧ value ≤ 2 ^ 64 - 1 :=
      Iff.rfl
    rw [IsStored, signed, unsigned] at stored
    omega
  calc (value.natAbs : ℚ) ≤ 2 ^ (64 : Int) := by exact_mod_cast small
    _ < 2 ^ (1023 : Int) := zpow_lt_zpow_right₀ one_lt_two (by decide)
    _ ≤ Format.binary64.limit := (Format.limit_bounds (by decide)).1

end Number

namespace Double

/-- A signed quotient has the quotient as its magnitude, and its sign unless it is zero. -/
theorem signed_quotient (negative : Bool) (numerator denominator : Nat) :
    let exact : ℚ := (signed negative numerator : Int) / (denominator : ℚ)
    |exact| = numerator / denominator ∧ (exact ≠ 0 → negative = decide (exact < 0)) := by
  intro exact
  have nonnegative : (0 : ℚ) ≤ numerator / denominator :=
    div_nonneg (Nat.cast_nonneg _) (Nat.cast_nonneg _)
  cases negative with
  | false =>
      have value : exact = numerator / denominator := rfl
      rw [value]
      exact ⟨abs_of_nonneg nonnegative, fun _ =>
        (decide_eq_false (not_lt_of_ge nonnegative)).symm⟩
  | true =>
      have value : exact = -(numerator / denominator : ℚ) := by
        simp [exact, signed, neg_div]
      rw [value, abs_neg, neg_ne_zero]
      exact ⟨abs_of_nonneg nonnegative, fun nonzero => (decide_eq_true
        (neg_neg_of_pos (lt_of_le_of_ne nonnegative nonzero.symm))).symm⟩

end Double

namespace ValueReader

/-! ### Rounding -/

/-- Numbers of 32 bits are rounded from the exact value, as a sign and a quotient. -/
theorem single_read_of_toRat? {number : Number} {exact : ℚ}
    (value : number.toRat? = some exact) :
    ∃ (negative : Bool) (numerator denominator : Nat), denominator ≠ 0 ∧
      |exact| = numerator / denominator ∧ (exact ≠ 0 → negative = decide (exact < 0)) ∧
      single.read (.number number) =
        some (.singleOfRatio negative numerator denominator) := by
  cases number with
  | integer whole =>
      obtain rfl : (whole : ℚ) = exact := Option.some.inj value
      refine ⟨decide (whole < 0), whole.natAbs, 1, one_ne_zero, ?_, ?_, rfl⟩
      · rw [Nat.cast_natAbs, Nat.cast_one, div_one, Int.cast_abs]
      · intro _
        rw [decide_eq_decide]
        exact Int.cast_lt_zero.symm
  | double stored =>
      cases stored with
      | finite negative biased fraction =>
          have quotient : (Double.finite negative biased fraction).toRat? = some exact := value
          rw [Double.toRat?_finite, Option.some.injEq] at quotient
          obtain ⟨magnitude, sign⟩ := Double.signed_quotient negative
            (Double.significand biased fraction * 2 ^ (Double.exponent biased).toNat)
            (2 ^ (-Double.exponent biased).toNat)
          rw [quotient] at magnitude sign
          exact ⟨negative, _, _, (Nat.two_pow_pos _).ne', magnitude, sign, rfl⟩
      | nan => cases value
      | infinite _ => cases value

/-- Every number that a response holds is a finite double, as a double. -/
theorem double_read_of_toRat? {number : Number} {exact : ℚ} (stored : number.IsStored)
    (value : number.toRat? = some exact) :
    ∃ wide, double.read (.number number) = some wide ∧ wide.toRat?.isSome := by
  refine ⟨number.toDouble, rfl, ?_⟩
  cases number with
  | integer whole =>
      have below : (whole.natAbs : ℚ) / (1 : Nat) < Format.binary64.limit := by
        rw [Nat.cast_one, div_one]
        exact Number.natAbs_lt_limit stored
      exact Option.isSome_iff_exists.mpr (Double.exists_toRat?_ofRatio one_ne_zero below)
  | double kept => exact Option.isSome_iff_exists.mpr ⟨exact, value⟩

/-- What is converted is also converted optionally. -/
theorem converts_of_read {α : Type} {reader : ValueReader α}
    (refusesNull : reader.read .null = none) (name : String) {value : Json} {converted : α}
    (read : reader.read value = some converted) :
    (reader.convert name value).outcome = .ok converted ∧
      (reader.optional.convert name value).outcome = .ok (some converted) := by
  rw [optional_convert_eq_ok_some_iff refusesNull, convert_eq_ok_iff, and_self]
  exact read

/-! ### Conversion -/

/-- **Floating-point values.** A number that a response holds, an integer of 64 bits or a finite
double, converts to a finite double. It converts to a number of 32 bits as well, and never fails to.
This one is finite exactly if the magnitude of the number is below `2 ^ 128 - 2 ^ 103`, half a unit
above the largest number of 32 bits, and from there on it is infinity with the sign of the number.
Optional values are converted in the same way. -/
theorem floating_finite_iff_below_limit (name : String) {number : Number} {exact : ℚ}
    (stored : number.IsStored) (value : number.toRat? = some exact) :
    ∃ wide narrow,
      ((double.convert name (.number number)).outcome = .ok wide ∧
        (double.optional.convert name (.number number)).outcome = .ok (some wide)) ∧
      wide.toRat?.isSome ∧
      ((single.convert name (.number number)).outcome = .ok narrow ∧
        (single.optional.convert name (.number number)).outcome = .ok (some narrow)) ∧
      (narrow.toRat?.isSome ↔ |exact| < 2 ^ 128 - 2 ^ 103) ∧
      (2 ^ 128 - 2 ^ 103 ≤ |exact| → narrow = .infinite (decide (exact < 0))) := by
  obtain ⟨wide, readWide, finite⟩ := double_read_of_toRat? stored value
  obtain ⟨negative, numerator, denominator, divides, magnitude, sign, readNarrow⟩ :=
    single_read_of_toRat? value
  have beyond (reached : 2 ^ 128 - 2 ^ 103 ≤ |exact|) :
      Double.singleOfRatio negative numerator denominator =
        .infinite (decide (exact < 0)) := by
    have nonzero : exact ≠ 0 := by
      rintro rfl
      norm_num at reached
    rw [← sign nonzero]
    rw [magnitude, ← Format.limit_binary32] at reached
    exact Double.singleOfRatio_of_limit_le divides reached
  refine ⟨wide, _, converts_of_read rfl name readWide, finite,
    converts_of_read rfl name readNarrow, ⟨?_, ?_⟩, beyond⟩
  · intro narrowFinite
    by_contra notBelow
    rw [beyond (not_lt.mp notBelow)] at narrowFinite
    cases narrowFinite
  · intro below
    rw [magnitude, ← Format.limit_binary32] at below
    exact Option.isSome_iff_exists.mpr (Double.exists_toRat?_singleOfRatio divides below)

/-- The limit itself, as a double, is already infinite in 32 bits. -/
theorem limit_is_infinite :
    let limit : Number := .double (.finite false 1150 4503599358935040)
    limit.IsStored ∧ limit.toRat? = some (2 ^ 128 - 2 ^ 103) ∧
      (single.convert "MaxWeight" (.number limit)).outcome = .ok (.infinite false) := by
  intro limit
  have value : limit.toRat? = some (2 ^ 128 - 2 ^ 103) := by
    change some ((1 : ℚ) * (9007198986305536 : Nat) * 2 ^ (75 : Int)) = _
    norm_num
  have stored : limit.IsStored := trivial
  obtain ⟨_, narrow, _, _, ⟨converts, _⟩, _, beyond⟩ :=
    floating_finite_iff_below_limit "MaxWeight" stored value
  have positive : ¬((2 : ℚ) ^ 128 - 2 ^ 103 < 0) := by norm_num
  have infinite := beyond (le_abs_self _)
  rw [decide_eq_false positive] at infinite
  rw [infinite] at converts
  exact ⟨stored, value, converts⟩

/-- A maximum of 1e300 does not fit 32 bits, and is not refused: its value there is infinity. -/
theorem far_double_is_not_refused :
    let far : Double := .ofDecimal false 1 300
    far.toRat?.isSome ∧
      (single.convert "MaxWeight" (.number (.double far))).outcome = .ok (.infinite false) := by
  intro far
  have finite : far = .finite false 2019 2221273467876764 := by decide +kernel
  refine ⟨?_, ?_⟩
  · rw [finite]
    rfl
  · rw [convert_eq_ok_iff]
    decide +kernel

end ValueReader

end Facet
