import Facet.Integer
import Facet.Json.Basic
import Mathlib.Data.Rat.Cast.Order
import Mathlib.Tactic.Ring

/-!
The exact values of numbers.

A finite double is a significand times a power of two, which is a rational number. What is left of
a double when its fraction is cut off is an integer, and it is the value of the double exactly if
there was no fraction.

Owns:
- the exact value of doubles and of JSON numbers;
- that a double is read as an integer exactly if that is its value;
- which integers a width holds.

Does not own: rounding, and the text of numbers.
-/

namespace Facet

/-! ### Values -/

/-- The exact value of a finite double. -/
def Double.toRat? : Double → Option ℚ
  | .finite negative biased fraction =>
      some ((if negative then -1 else 1) * significand biased fraction * 2 ^ exponent biased)
  | _ => none

/-- The exact value of a number. -/
def Number.toRat? : Number → Option ℚ
  | .integer value => some value
  | .double value => value.toRat?

/-- The exact value of a JSON value that is a number. -/
def Json.toRat? : Json → Option ℚ
  | .number value => value.toRat?
  | _ => none

/-! ### Whole doubles -/

namespace Double

theorem signed_mul (negative : Bool) (magnitude factor : Nat) :
    signed negative (magnitude * factor) = signed negative magnitude * factor := by
  cases negative <;> simp [signed]

/-- A signed quotient is an integer exactly if nothing is left over. -/
theorem signed_eq_mul_iff {negative : Bool} {numerator denominator : Nat}
    (positive : 0 < denominator) {value : Int} :
    signed negative numerator = value * denominator ↔
      numerator % denominator = 0 ∧ signed negative (numerator / denominator) = value := by
  have nonzero : (denominator : Int) ≠ 0 := by omega
  constructor
  · intro same
    have magnitudes : numerator = value.natAbs * denominator := by
      have taken := congrArg Int.natAbs same
      rw [Int.natAbs_mul, Int.natAbs_natCast] at taken
      rw [← taken]
      cases negative <;> simp [signed]
    rw [magnitudes, Nat.mul_mod_left, Nat.mul_div_cancel _ positive]
    refine ⟨rfl, ?_⟩
    rw [magnitudes, signed_mul] at same
    exact Int.eq_of_mul_eq_mul_right nonzero same
  · intro divided
    obtain ⟨divides, quotient⟩ := divided
    have split := Nat.div_add_mod numerator denominator
    rw [divides, Nat.add_zero, Nat.mul_comm] at split
    rw [← quotient, ← signed_mul, split]

/-- A finite double is read as an integer exactly if its significand, scaled up, is the integer
scaled up. -/
theorem toInt?_finite_eq_some_iff {negative : Bool} {biased : Fin 2047}
    {fraction : Fin (Nat.pow 2 52)} {whole : Int} :
    toInt? (.finite negative biased fraction) = some whole ↔
      signed negative (significand biased fraction * 2 ^ (exponent biased).toNat) =
        whole * (2 ^ (-exponent biased).toNat : Nat) := by
  rw [toInt?, Option.ite_none_right_eq_some, isWhole, beq_iff_eq, truncated?, Option.some.injEq]
  exact (signed_eq_mul_iff (Nat.two_pow_pos _)).symm

private theorem cast_signed (negative : Bool) (magnitude : Nat) :
    ((signed negative magnitude : Int) : ℚ) = (if negative then -1 else 1) * magnitude := by
  cases negative <;> simp [signed]

/-- A power of two is a quotient of two natural numbers, of which one is one. -/
theorem two_zpow_eq (power : Int) :
    (2 : ℚ) ^ power = (2 ^ power.toNat : Nat) / (2 ^ (-power).toNat : Nat) := by
  rcases Int.le_total 0 power with up | down
  · have flat : (-power).toNat = 0 := by omega
    obtain ⟨exponent, rfl⟩ := Int.eq_ofNat_of_zero_le up
    simp [flat]
  · have flat : power.toNat = 0 := by omega
    obtain ⟨exponent, lowered⟩ := Int.eq_ofNat_of_zero_le (by omega : 0 ≤ -power)
    have negated : power = -exponent := by omega
    subst negated
    simp

/-- The value of a finite double is the quotient that truncation divides. -/
theorem toRat?_finite (negative : Bool) (biased : Fin 2047) (fraction : Fin (Nat.pow 2 52)) :
    let unit := exponent biased
    let magnitude := significand biased fraction * 2 ^ unit.toNat
    toRat? (.finite negative biased fraction) =
      some (((signed negative magnitude : Int) : ℚ) / (2 ^ (-unit).toNat : Nat)) := by
  intro unit magnitude
  have spread : (magnitude : ℚ) =
      significand biased fraction * (2 ^ unit.toNat : Nat) := Nat.cast_mul _ _
  have value : (if negative then -1 else 1) * (significand biased fraction : ℚ) * 2 ^ unit =
      ((signed negative magnitude : Int) : ℚ) / (2 ^ (-unit).toNat : Nat) := by
    rw [two_zpow_eq, cast_signed, spread]
    ring
  rw [toRat?, value]

/-- **Doubles that are integers.** A double is read as an integer exactly if that is its value. -/
theorem toInt?_eq_some_iff {value : Double} {whole : Int} :
    value.toInt? = some whole ↔ value.toRat? = some (whole : ℚ) := by
  cases value with
  | finite negative biased fraction =>
      have positive : 0 < 2 ^ (-exponent biased).toNat := Nat.two_pow_pos _
      have nonzero : ((2 ^ (-exponent biased).toNat : Nat) : ℚ) ≠ 0 := by
        exact_mod_cast positive.ne'
      rw [toInt?_finite_eq_some_iff, toRat?_finite, Option.some.injEq, div_eq_iff nonzero]
      norm_cast
  | nan => simp [toInt?, isWhole, toRat?]
  | infinite negative => simp [toInt?, isWhole, toRat?]

end Double

/-! ### Widths -/

namespace IntegerType

/-- The integers of a width. -/
def Holds (type : IntegerType) (value : Int) : Prop :=
  type.least ≤ value ∧ value ≤ type.greatest

theorem check?_eq_some_iff {type : IntegerType} {value checked : Int} :
    type.check? value = some checked ↔ value = checked ∧ type.Holds checked := by
  rw [check?, Option.ite_none_right_eq_some, Option.some.injEq]
  constructor
  · rintro ⟨holds, rfl⟩
    exact ⟨rfl, holds⟩
  · rintro ⟨rfl, holds⟩
    exact ⟨holds, rfl⟩

end IntegerType

end Facet
