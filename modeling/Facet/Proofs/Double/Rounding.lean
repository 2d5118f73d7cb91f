import Facet.Proofs.Double.Exact

/-!
Doubles of integers.

Integers of up to 53 bits are doubles. Larger integers are rounded, but never to below the power
of two that they begin with, since that is a double itself.

Owns:
- the significand and the unit of a normal number, and of an integer that is rounded;
- the place of an integer among the doubles;
- that integers below 2^53 in magnitude are their own doubles;
- that rounding keeps the sign of an integer, and keeps it beyond the powers of two that it has
  reached.

Does not own: quotients and decimals.
-/

namespace Facet

/-! ### Significands -/

namespace Format

/-- The leading power of an integer is its binary logarithm. -/
theorem leadingPower_one {magnitude : Nat} (nonzero : magnitude ≠ 0) :
    leadingPower magnitude 1 = magnitude.log2 := by
  have below := Nat.log2_self_le nonzero
  have atMost : powerAtMost magnitude.log2 magnitude 1 = true := by
    have flat : (-(magnitude.log2 : Int)).toNat = 0 := by omega
    rw [powerAtMost, flat, decide_eq_true_eq, Int.toNat_natCast]
    simpa using below
  have one : Nat.log2 1 = 0 := by decide
  rw [leadingPower, one]
  simp only [Nat.cast_zero, sub_zero, atMost, if_true]

/-- An integer is rounded to 53 bits from its leading one on. -/
theorem round_one {magnitude : Nat} (nonzero : magnitude ≠ 0) :
    binary64.round magnitude 1 =
      (nearest (magnitude * 2 ^ (52 - magnitude.log2)) (2 ^ (magnitude.log2 - 52)),
        (magnitude.log2 : Int) - 52) := by
  have unit : max (-1074 : Int) ((magnitude.log2 : Int) - (53 - 1)) =
      (magnitude.log2 : Int) - 52 := by omega
  have down : (-((magnitude.log2 : Int) - 52)).toNat = 52 - magnitude.log2 := by omega
  have up : ((magnitude.log2 : Int) - 52).toNat = magnitude.log2 - 52 := by omega
  simp only [round, leadingPower_one nonzero, binary64, Nat.cast_ofNat, unit, down, up,
    Nat.one_mul]
  rfl

private theorem nearest_one (numerator : Nat) : nearest numerator 1 = numerator := by
  simp [nearest, Nat.mod_one]

theorem quotient_le_nearest (numerator denominator : Nat) :
    numerator / denominator ≤ nearest numerator denominator := by
  unfold nearest
  simp only
  split_ifs <;> omega

end Format

namespace Double

/-! ### Normal numbers -/

section

variable {biased : Fin 2047} {power : Nat}

/-- A normal number has a leading one above its fraction. -/
theorem significand_of_normal (normal : biased.val = power + 1023)
    (fraction : Fin (Nat.pow 2 52)) :
    significand biased fraction = 2 ^ 52 + fraction.val := by
  rw [significand, if_neg (by omega)]
  rfl

/-- The leading one of a normal number stands for the power of two that it begins with. -/
theorem exponent_of_normal (normal : biased.val = power + 1023) :
    exponent biased = (power : Int) - 52 := by
  rw [exponent]
  omega

end

/-! ### Signs -/

private theorem signed_natAbs (value : Int) : signed (decide (value < 0)) value.natAbs = value := by
  unfold signed
  by_cases negative : value < 0
  · rw [if_pos (decide_eq_true negative)]
    omega
  · rw [if_neg (by simpa using negative)]
    omega

private theorem natAbs_signed (negative : Bool) (magnitude : Nat) :
    (signed negative magnitude).natAbs = magnitude := by
  cases negative <;> simp [signed]

theorem signed_neg_iff {negative : Bool} {magnitude : Nat} (positive : 0 < magnitude) :
    signed negative magnitude < 0 ↔ negative = true := by
  cases negative <;> simp [signed, positive]

/-! ### Places among the doubles -/

/-- The place of an integer other than zero: above the place of the power of two that it begins
with. -/
theorem ofInt_of_ne_zero {value : Int} (nonzero : value.natAbs ≠ 0) :
    ofInt value = ofRank (decide (value < 0))
      ((value.natAbs.log2 + 1022) * 2 ^ 52 +
        Format.nearest (value.natAbs * 2 ^ (52 - value.natAbs.log2))
          (2 ^ (value.natAbs.log2 - 52))) := by
  have offset : ((value.natAbs.log2 : Int) - 52 + 1074).toNat = value.natAbs.log2 + 1022 := by
    omega
  rw [ofInt, ofRatio, if_neg nonzero, Format.round_one nonzero]
  simp only [offset]
  rfl

/-- The double at a place has the fields that the place is made of. -/
theorem ofRank_of_fields (negative : Bool) (biased : Fin 2047) (fraction : Fin (Nat.pow 2 52)) :
    ofRank negative (biased.val * 2 ^ 52 + fraction.val) = .finite negative biased fraction := by
  have fractionBelow : fraction.val < 2 ^ 52 := fraction.isLt
  have biasedBelow : biased.val < 2047 := biased.isLt
  have below : biased.val * 2 ^ 52 + fraction.val < 2047 * 2 ^ 52 := by omega
  have quotient : (biased.val * 2 ^ 52 + fraction.val) / 2 ^ 52 = biased.val := by omega
  have remainder : (biased.val * 2 ^ 52 + fraction.val) % 2 ^ 52 = fraction.val := by omega
  refine (dif_pos below).trans ?_
  congr 1
  · exact Fin.ext quotient
  · exact Fin.ext remainder

/-- From the place of a power of two on, if it is at least 2^52, doubles are integers that reach
the power, on their side of zero. -/
theorem toInt?_ofRank {negative : Bool} {rank power : Nat} {whole : Int} (large : 52 ≤ power)
    (reached : (power + 1023) * 2 ^ 52 ≤ rank)
    (read : (ofRank negative rank).toInt? = some whole) :
    2 ^ power ≤ whole.natAbs ∧ (whole < 0 ↔ negative = true) := by
  by_cases finite : rank < 2047 * 2 ^ 52
  · have biasedBelow : rank / 2 ^ 52 < 2047 := by omega
    have fractionBelow : rank % 2 ^ 52 < 2 ^ 52 := by omega
    have biasedLarge : power + 1023 ≤ rank / 2 ^ 52 :=
      (Nat.le_div_iff_mul_le (Nat.two_pow_pos 52)).mpr reached
    let biased : Fin 2047 := ⟨rank / 2 ^ 52, biasedBelow⟩
    let fraction : Fin (Nat.pow 2 52) := ⟨rank % 2 ^ 52, fractionBelow⟩
    have fields : ofRank negative rank = .finite negative biased fraction := by
      rw [← ofRank_of_fields, Nat.div_add_mod']
    obtain ⟨leading, normal⟩ : ∃ leading, biased.val = leading + 1023 :=
      ⟨rank / 2 ^ 52 - 1023, by simp only [biased]; omega⟩
    have further : power ≤ leading := by
      simp only [biased] at normal
      omega
    have unit : exponent biased = ((leading - 52 : Nat) : Int) := by
      rw [exponent_of_normal normal]
      omega
    rw [fields, toInt?_finite_eq_some_iff, unit, Int.toNat_neg_natCast, Int.toNat_natCast,
      significand_of_normal normal, Nat.pow_zero, Nat.cast_one, mul_one] at read
    have beyond : 2 ^ power ≤ (2 ^ 52 + fraction.val) * 2 ^ (leading - 52) := by
      calc 2 ^ power = 2 ^ 52 * 2 ^ (power - 52) := by
            rw [← Nat.pow_add, Nat.add_sub_cancel' large]
        _ ≤ _ :=
            Nat.mul_le_mul (Nat.le_add_right _ _) (Nat.pow_le_pow_right (by decide) (by omega))
    rw [← read, natAbs_signed]
    exact ⟨beyond, signed_neg_iff (Nat.lt_of_lt_of_le (Nat.two_pow_pos power) beyond)⟩
  · have infinite : ofRank negative rank = .infinite negative := dif_neg finite
    rw [infinite] at read
    cases read

/-! ### Integers -/

/-- An integer of up to 53 bits, moved up until its leading one is the first of 53 bits. -/
theorem aligned_bounds {magnitude : Nat} (nonzero : magnitude ≠ 0) (few : magnitude.log2 ≤ 52) :
    2 ^ 52 ≤ magnitude * 2 ^ (52 - magnitude.log2) ∧
      magnitude * 2 ^ (52 - magnitude.log2) < 2 * 2 ^ 52 := by
  have scale : 2 ^ magnitude.log2 * 2 ^ (52 - magnitude.log2) = 2 ^ 52 := by
    rw [← Nat.pow_add, Nat.add_sub_cancel' few]
  constructor
  · rw [← scale]
    exact Nat.mul_le_mul_right _ (Nat.log2_self_le nonzero)
  · rw [← scale, ← Nat.mul_assoc, Nat.mul_comm 2, ← Nat.pow_succ]
    exact Nat.mul_lt_mul_of_pos_right Nat.lt_log2_self (Nat.two_pow_pos _)

/-- The double of an integer of up to 53 bits has the leading one of the integer, and the bits
behind it as its fraction. -/
theorem ofInt_of_few_bits {value : Int} (nonzero : value.natAbs ≠ 0)
    (few : value.natAbs.log2 ≤ 52) :
    ∃ (biased : Fin 2047) (fraction : Fin (Nat.pow 2 52)),
      ofInt value = .finite (decide (value < 0)) biased fraction ∧
        biased.val = value.natAbs.log2 + 1023 ∧
          2 ^ 52 + fraction.val = value.natAbs * 2 ^ (52 - value.natAbs.log2) := by
  obtain ⟨lower, upper⟩ := aligned_bounds nonzero few
  have biasedBelow : value.natAbs.log2 + 1023 < 2047 := by omega
  have fractionBelow : value.natAbs * 2 ^ (52 - value.natAbs.log2) - 2 ^ 52 < 2 ^ 52 := by omega
  let biased : Fin 2047 := ⟨value.natAbs.log2 + 1023, biasedBelow⟩
  let fraction : Fin (Nat.pow 2 52) :=
    ⟨value.natAbs * 2 ^ (52 - value.natAbs.log2) - 2 ^ 52, fractionBelow⟩
  have bits : 2 ^ 52 + fraction.val = value.natAbs * 2 ^ (52 - value.natAbs.log2) :=
    Nat.add_sub_cancel' lower
  refine ⟨biased, fraction, ?_, rfl, bits⟩
  have unit : value.natAbs.log2 - 52 = 0 := by omega
  have next : biased.val * 2 ^ 52 = (value.natAbs.log2 + 1022) * 2 ^ 52 + 2 ^ 52 :=
    Nat.succ_mul (value.natAbs.log2 + 1022) (2 ^ 52)
  rw [ofInt_of_ne_zero nonzero, unit, Nat.pow_zero, Format.nearest_one, ← bits, ← Nat.add_assoc,
    ← next, ofRank_of_fields]

/-- **Integers of up to 53 bits are doubles.** -/
theorem toInt?_ofInt_of_small {value : Int} (small : value.natAbs < 2 ^ 53) :
    (ofInt value).toInt? = some value := by
  by_cases zeroValue : value.natAbs = 0
  · rw [Int.natAbs_eq_zero.mp zeroValue]
    exact toInt?_zero false
  · have few : value.natAbs.log2 < 53 := (Nat.log2_lt zeroValue).mpr small
    obtain ⟨biased, fraction, fields, normal, bits⟩ :=
      ofInt_of_few_bits zeroValue (Nat.le_of_lt_succ few)
    have up : (exponent biased).toNat = 0 := by
      rw [exponent_of_normal normal]
      omega
    have down : (-exponent biased).toNat = 52 - value.natAbs.log2 := by
      rw [exponent_of_normal normal]
      omega
    rw [fields, toInt?_finite_eq_some_iff, up, down, significand_of_normal normal, bits,
      Nat.pow_zero, Nat.mul_one, signed_mul, signed_natAbs]

/-- **Rounding keeps an integer beyond a power of two.** If an integer has reached a power of two
that is too large for a fraction, then so has the integer that it is rounded to, on the same side
of zero. -/
theorem toInt?_ofInt_of_large {value whole : Int} {power : Nat} (large : 52 ≤ power)
    (reached : 2 ^ power ≤ value.natAbs) (read : (ofInt value).toInt? = some whole) :
    2 ^ power ≤ whole.natAbs ∧ (whole < 0 ↔ value < 0) := by
  have nonzero : value.natAbs ≠ 0 := by
    have := Nat.two_pow_pos power
    omega
  have bits : power ≤ value.natAbs.log2 := (Nat.le_log2 nonzero).mpr reached
  have flat : 52 - value.natAbs.log2 = 0 := by omega
  have leading : 2 ^ 52 ≤ Format.nearest (value.natAbs * 2 ^ 0) (2 ^ (value.natAbs.log2 - 52)) := by
    refine Nat.le_trans ?_ (Format.quotient_le_nearest _ _)
    rw [Nat.pow_zero, Nat.mul_one, Nat.le_div_iff_mul_le (Nat.two_pow_pos _), ← Nat.pow_add]
    have rejoined : 52 + (value.natAbs.log2 - 52) = value.natAbs.log2 := by omega
    rw [rejoined]
    exact Nat.log2_self_le nonzero
  rw [ofInt_of_ne_zero nonzero, flat] at read
  rw [← @decide_eq_true_iff (value < 0)]
  refine toInt?_ofRank large ?_ read
  calc (power + 1023) * 2 ^ 52 = (power + 1022) * 2 ^ 52 + 2 ^ 52 := Nat.succ_mul _ _
    _ ≤ _ := Nat.add_le_add (Nat.mul_le_mul_right _ (by omega)) leading

end Double

end Facet
