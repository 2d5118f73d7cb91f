import Facet.Proofs.Double.Rounding
import Mathlib.Tactic.FieldSimp
import Mathlib.Tactic.Linarith
import Mathlib.Tactic.NormNum

/-!
Where rounding leaves the range of a format.

A quotient is rounded to a multiple of a unit, which depends on the power of two that the quotient
has reached. The largest finite number of a format has a significand of ones and the greatest
unit. A quotient up to half a unit above it is rounded down; from there on it is rounded to the
next power of two, which the format does not have.

Owns:
- the power of two that a quotient has reached, and the significand that it is rounded to;
- `Format.limit`, half a unit above the largest number, and that rounding overflows from there on;
- that doubles and numbers of 32 bits are infinite from the limit of their format on, and finite
  before it.
-/

namespace Facet

namespace Format

section

variable {numerator denominator : Nat} {format : Format}

/-! ### Quotients -/

theorem powerAtMost_iff {power : Int} (nonzero : denominator ≠ 0) :
    powerAtMost power numerator denominator = true ↔
      (2 : ℚ) ^ power ≤ numerator / denominator := by
  have positive : (0 : ℚ) < denominator := by
    exact_mod_cast Nat.pos_of_ne_zero nonzero
  have scale : (0 : ℚ) < (2 ^ (-power).toNat : Nat) := by
    exact_mod_cast Nat.two_pow_pos _
  rw [powerAtMost, decide_eq_true_eq, Double.two_zpow_eq, div_le_div_iff₀ scale positive,
    mul_comm denominator]
  norm_cast

/-- The leading power of a quotient is the largest that it has reached. -/
theorem leadingPower_bounds (nonzero : numerator ≠ 0) (divides : denominator ≠ 0) :
    (2 : ℚ) ^ leadingPower numerator denominator ≤ numerator / denominator ∧
      (numerator : ℚ) / denominator < 2 ^ (leadingPower numerator denominator + 1) := by
  have two : (2 : ℚ) ≠ 0 := two_ne_zero
  have positive : (0 : ℚ) < denominator := by
    exact_mod_cast Nat.pos_of_ne_zero divides
  have above : (2 : ℚ) ^ (numerator.log2 : Int) ≤ numerator := by
    exact_mod_cast Nat.log2_self_le nonzero
  have below : (numerator : ℚ) < 2 ^ ((numerator.log2 : Int) + 1) := by
    exact_mod_cast Nat.lt_log2_self (n := numerator)
  have divisorAbove : (2 : ℚ) ^ (denominator.log2 : Int) ≤ denominator := by
    exact_mod_cast Nat.log2_self_le divides
  have divisorBelow : (denominator : ℚ) < 2 ^ ((denominator.log2 : Int) + 1) := by
    exact_mod_cast Nat.lt_log2_self (n := denominator)
  -- The logarithms bound the quotient up to a factor of two on either side.
  have lower : (2 : ℚ) ^ ((numerator.log2 : Int) - denominator.log2 - 1) ≤
      numerator / denominator := by
    rw [le_div_iff₀ positive]
    calc (2 : ℚ) ^ ((numerator.log2 : Int) - denominator.log2 - 1) * denominator
        ≤ 2 ^ ((numerator.log2 : Int) - denominator.log2 - 1) *
            2 ^ ((denominator.log2 : Int) + 1) :=
          mul_le_mul_of_nonneg_left divisorBelow.le (zpow_pos two_pos _).le
      _ = 2 ^ (numerator.log2 : Int) := by
          rw [← zpow_add₀ two]
          congr 1
          omega
      _ ≤ numerator := above
  have upper : (numerator : ℚ) / denominator <
      2 ^ ((numerator.log2 : Int) - denominator.log2 + 1) := by
    rw [div_lt_iff₀ positive]
    calc (numerator : ℚ) < 2 ^ ((numerator.log2 : Int) + 1) := below
      _ = 2 ^ ((numerator.log2 : Int) - denominator.log2 + 1) *
            2 ^ (denominator.log2 : Int) := by
          rw [← zpow_add₀ two]
          congr 1
          omega
      _ ≤ _ := mul_le_mul_of_nonneg_left divisorAbove (zpow_pos two_pos _).le
  unfold leadingPower
  cases atMost : powerAtMost ((numerator.log2 : Int) - denominator.log2) numerator denominator with
  | true =>
      simp only [atMost, if_true]
      exact ⟨(powerAtMost_iff divides).mp atMost, upper⟩
  | false =>
      simp only [atMost, Bool.false_eq_true, if_false, sub_add_cancel]
      refine ⟨lower, lt_of_not_ge fun reached => ?_⟩
      rw [(powerAtMost_iff divides).mpr reached] at atMost
      cases atMost

/-! ### Significands -/

/-- An even number is reached by rounding from half a step below it on: a half goes to the even
neighbour. -/
theorem le_nearest_iff_of_even {bound : Nat} (even : bound % 2 = 0) (divides : denominator ≠ 0) :
    bound ≤ nearest numerator denominator ↔
      2 * bound * denominator ≤ 2 * numerator + denominator := by
  have split := Nat.div_add_mod numerator denominator
  have rest := Nat.mod_lt numerator (Nat.pos_of_ne_zero divides)
  unfold nearest
  simp only
  generalize numerator / denominator = quotient at *
  generalize numerator % denominator = remainder at *
  rcases Nat.lt_trichotomy bound (quotient + 1) with reached | next | far
  · have scaled : bound * denominator ≤ quotient * denominator :=
      Nat.mul_le_mul_right _ (Nat.le_of_lt_succ reached)
    have within : 2 * bound * denominator ≤ 2 * numerator + denominator := by
      rw [Nat.mul_assoc, ← split, Nat.mul_comm denominator]
      omega
    refine iff_of_true ?_ within
    split_ifs <;> omega
  · subst next
    have half : 2 * (quotient + 1) * denominator ≤ 2 * numerator + denominator ↔
        denominator ≤ 2 * remainder := by
      rw [← split, Nat.mul_assoc, Nat.add_mul, Nat.mul_comm denominator]
      omega
    rw [half]
    split_ifs <;> omega
  · have scaled : (quotient + 2) * denominator ≤ bound * denominator :=
      Nat.mul_le_mul_right _ far
    have beyond : ¬2 * bound * denominator ≤ 2 * numerator + denominator := by
      rw [Nat.add_mul] at scaled
      rw [Nat.mul_assoc, ← split, Nat.mul_comm denominator]
      omega
    refine iff_of_false ?_ beyond
    split_ifs <;> omega

private theorem nearest_le_quotient_succ (numerator denominator : Nat) :
    nearest numerator denominator ≤ numerator / denominator + 1 := by
  unfold nearest
  simp only
  split_ifs <;> omega

/-- The significand of a rounded quotient is the integer nearest to the quotient in units. -/
theorem round_eq_nearest (format : Format) (numerator : Nat) (divides : denominator ≠ 0) :
    ∃ scaled divisor : Nat, 0 < divisor ∧
      (format.round numerator denominator).1 = nearest scaled divisor ∧
      (scaled : ℚ) = numerator / denominator / 2 ^ (format.round numerator denominator).2 *
        divisor := by
  generalize unitIs : (format.round numerator denominator).2 = unit
  have divisor : 0 < denominator * 2 ^ unit.toNat :=
    Nat.mul_pos (Nat.pos_of_ne_zero divides) (Nat.two_pow_pos _)
  refine ⟨numerator * 2 ^ (-unit).toNat, denominator * 2 ^ unit.toNat, divisor, ?_, ?_⟩
  · rw [← unitIs]
    rfl
  · have nonzero : (denominator : ℚ) ≠ 0 := by exact_mod_cast divides
    rw [Double.two_zpow_eq]
    push_cast
    field_simp

/-- A significand is reached from there on. -/
theorem le_round_of_le {bound : Nat} (divides : denominator ≠ 0)
    (reached : bound * 2 ^ (format.round numerator denominator).2 ≤
      (numerator : ℚ) / denominator) :
    bound ≤ (format.round numerator denominator).1 := by
  obtain ⟨scaled, divisor, positive, significand, units⟩ :=
    round_eq_nearest format numerator divides
  rw [← le_div_iff₀ (zpow_pos two_pos _)] at reached
  have whole : bound * divisor ≤ scaled := by
    rw [← Nat.cast_le (α := ℚ), units, Nat.cast_mul]
    exact mul_le_mul_of_nonneg_right reached (Nat.cast_nonneg _)
  rw [significand]
  exact Nat.le_trans ((Nat.le_div_iff_mul_le positive).mpr whole) (quotient_le_nearest _ _)

/-- A significand that is not reached is not exceeded by rounding. -/
theorem round_le_of_lt {bound : Nat} (divides : denominator ≠ 0)
    (below : (numerator : ℚ) / denominator <
      bound * 2 ^ (format.round numerator denominator).2) :
    (format.round numerator denominator).1 ≤ bound := by
  obtain ⟨scaled, divisor, positive, significand, units⟩ :=
    round_eq_nearest format numerator divides
  rw [← div_lt_iff₀ (zpow_pos two_pos _)] at below
  have whole : scaled < bound * divisor := by
    rw [← Nat.cast_lt (α := ℚ), units, Nat.cast_mul]
    exact mul_lt_mul_of_pos_right below (Nat.cast_pos.mpr positive)
  rw [significand]
  exact Nat.le_trans (nearest_le_quotient_succ _ _)
    ((Nat.div_lt_iff_lt_mul positive).mpr whole)

/-- An even significand is reached by rounding from half a unit below it on. -/
theorem le_round_iff_of_even {bound : Nat} (even : bound % 2 = 0) (divides : denominator ≠ 0) :
    bound ≤ (format.round numerator denominator).1 ↔
      (bound - 1 / 2) * 2 ^ (format.round numerator denominator).2 ≤
        (numerator : ℚ) / denominator := by
  obtain ⟨scaled, divisor, positive, significand, units⟩ :=
    round_eq_nearest format numerator divides
  have scale : (0 : ℚ) < divisor := Nat.cast_pos.mpr positive
  rw [significand, le_nearest_iff_of_even even positive.ne', ← le_div_iff₀ (zpow_pos two_pos _),
    ← mul_le_mul_iff_of_pos_right scale, ← units, ← Nat.cast_le (α := ℚ)]
  push_cast
  constructor <;> intro <;> linarith

/-! ### Units -/

/-- The unit is the least one that leaves no more bits than the format has. -/
theorem round_unit (format : Format) (numerator denominator : Nat) :
    (format.round numerator denominator).2 =
      max format.leastUnit (leadingPower numerator denominator - (format.precision - 1)) := rfl

/-- A rounded quotient has a leading one in front unless the unit is the least one, and no more
bits than the format has unless it is the next power of two. -/
theorem round_bounds (nonzero : numerator ≠ 0) (divides : denominator ≠ 0)
    (precise : 0 < format.precision) :
    format.leastUnit ≤ (format.round numerator denominator).2 ∧
      (format.leastUnit < (format.round numerator denominator).2 →
        2 ^ (format.precision - 1) ≤ (format.round numerator denominator).1) ∧
      (format.round numerator denominator).1 ≤ 2 ^ format.precision := by
  obtain ⟨lower, upper⟩ := leadingPower_bounds nonzero divides
  have two : (2 : ℚ) ≠ 0 := two_ne_zero
  have unit := round_unit format numerator denominator
  refine ⟨?_, ?_, ?_⟩
  · omega
  · intro raised
    refine le_round_of_le divides ?_
    calc ((2 ^ (format.precision - 1) : Nat) : ℚ) * 2 ^ (format.round numerator denominator).2
        = 2 ^ leadingPower numerator denominator := by
          push_cast
          rw [← zpow_natCast, ← zpow_add₀ two]
          congr 1
          omega
      _ ≤ _ := lower
  · refine round_le_of_lt divides ?_
    calc (numerator : ℚ) / denominator < 2 ^ (leadingPower numerator denominator + 1) := upper
      _ ≤ 2 ^ (format.precision + (format.round numerator denominator).2) :=
          zpow_le_zpow_right₀ one_le_two (by omega)
      _ = ((2 ^ format.precision : Nat) : ℚ) * 2 ^ (format.round numerator denominator).2 := by
          push_cast
          rw [← zpow_natCast, ← zpow_add₀ two]

/-! ### Limits -/

/-- Half a unit above the largest number of the format, where rounding begins to overflow. -/
def limit (format : Format) : ℚ :=
  (2 ^ format.precision - 1 / 2) * 2 ^ format.greatestUnit

/-- The limit lies between the last power of two of the format and the next one. -/
theorem limit_bounds (precise : 0 < format.precision) :
    (2 : ℚ) ^ (format.greatestUnit + (format.precision - 1)) ≤ format.limit ∧
      format.limit < 2 ^ (format.greatestUnit + format.precision) := by
  have two : (2 : ℚ) ≠ 0 := two_ne_zero
  have one : (1 : ℚ) ≤ 2 ^ (format.precision - 1) := one_le_pow₀ one_le_two
  have doubled : (2 : ℚ) ^ format.precision = 2 * 2 ^ (format.precision - 1) := by
    rw [← pow_succ', Nat.sub_add_cancel precise]
  have last : (2 : ℚ) ^ (format.greatestUnit + (format.precision - 1)) =
      2 ^ (format.precision - 1) * 2 ^ format.greatestUnit := by
    rw [← zpow_natCast, ← zpow_add₀ two]
    congr 1
    omega
  have next : (2 : ℚ) ^ (format.greatestUnit + format.precision) =
      2 ^ format.precision * 2 ^ format.greatestUnit := by
    rw [← zpow_natCast, ← zpow_add₀ two, add_comm]
  rw [last, next, limit, doubled]
  constructor
  · exact mul_le_mul_of_nonneg_right (by linarith) (zpow_pos two_pos _).le
  · exact mul_lt_mul_of_pos_right (by linarith) (zpow_pos two_pos _)

theorem overflows_iff {rounded : Nat × Int} :
    format.overflows rounded = true ↔
      format.greatestUnit < rounded.2 ∨
        rounded.2 = format.greatestUnit ∧ 2 ^ format.precision ≤ rounded.1 := by
  simp only [overflows, Bool.or_eq_true, Bool.and_eq_true, decide_eq_true_eq, beq_iff_eq]
  rfl

/-- **Where rounding overflows.** A quotient is rounded to above the largest number of a format
exactly if it has reached the limit of the format. -/
theorem overflows_round_iff (nonzero : numerator ≠ 0) (divides : denominator ≠ 0)
    (precise : 0 < format.precision) (ordered : format.leastUnit ≤ format.greatestUnit) :
    format.overflows (format.round numerator denominator) = true ↔
      format.limit ≤ (numerator : ℚ) / denominator := by
  obtain ⟨lower, upper⟩ := leadingPower_bounds nonzero divides
  obtain ⟨afterLast, beforeNext⟩ := limit_bounds precise
  have unit := round_unit format numerator denominator
  rw [overflows_iff]
  rcases lt_trichotomy format.greatestUnit (format.round numerator denominator).2 with
    beyond | last | within
  · refine iff_of_true (Or.inl beyond) ?_
    calc format.limit ≤ 2 ^ (format.greatestUnit + format.precision) := beforeNext.le
      _ ≤ 2 ^ leadingPower numerator denominator := zpow_le_zpow_right₀ one_le_two (by omega)
      _ ≤ _ := lower
  · have even : 2 ^ format.precision % 2 = 0 := by
      rw [← Nat.succ_pred_eq_of_pos precise, Nat.pow_succ, Nat.mul_mod_left]
    have reached : 2 ^ format.precision ≤ (format.round numerator denominator).1 ↔ _ :=
      le_round_iff_of_even even divides
    rw [← last] at reached ⊢
    rw [limit]
    push_cast at reached
    simpa using reached
  · refine iff_of_false ?_ (not_le.mpr ?_)
    · rintro (beyond | ⟨last, _⟩) <;> omega
    · calc (numerator : ℚ) / denominator < 2 ^ (leadingPower numerator denominator + 1) := upper
        _ ≤ 2 ^ (format.greatestUnit + (format.precision - 1)) :=
            zpow_le_zpow_right₀ one_le_two (by omega)
        _ ≤ _ := afterLast

end

/-- The limit of numbers of 32 bits. -/
theorem limit_binary32 : binary32.limit = 2 ^ 128 - 2 ^ 103 := by
  norm_num [limit, binary32]

end Format

namespace Double

variable {negative : Bool} {numerator denominator : Nat}

/-! ### Doubles -/

/-- The places of finite doubles are those below that of infinity. -/
theorem exists_toRat?_ofRank {rank : Nat} (below : rank < 2047 * 2 ^ 52) :
    ∃ exact, (ofRank negative rank).toRat? = some exact := by
  have fields : ofRank negative rank = .finite negative _ _ := dif_pos below
  rw [fields]
  exact ⟨_, rfl⟩

/-- A rounded quotient has its place below that of infinity exactly if it does not overflow. -/
theorem rank_lt_iff (nonzero : numerator ≠ 0) (divides : denominator ≠ 0) :
    let rounded := Format.binary64.round numerator denominator
    (rounded.2 + 1074).toNat * 2 ^ 52 + rounded.1 < 2047 * 2 ^ 52 ↔
      (numerator : ℚ) / denominator < Format.binary64.limit := by
  intro rounded
  obtain ⟨least, leading, most⟩ : -1074 ≤ rounded.2 ∧
      (-1074 < rounded.2 → 2 ^ 52 ≤ rounded.1) ∧ rounded.1 ≤ 2 ^ 53 :=
    Format.round_bounds nonzero divides (by decide : 0 < Format.binary64.precision)
  have overflows : Format.binary64.overflows rounded = true ↔
      971 < rounded.2 ∨ rounded.2 = 971 ∧ 2 ^ 53 ≤ rounded.1 :=
    Format.overflows_iff
  have limit : Format.binary64.overflows rounded = true ↔ _ :=
    Format.overflows_round_iff nonzero divides (by decide) (by decide)
  rw [← not_le (b := (numerator : ℚ) / denominator), ← limit, overflows]
  omega

/-- A quotient below the limit is rounded to a finite double. -/
theorem exists_toRat?_ofRatio (divides : denominator ≠ 0)
    (below : (numerator : ℚ) / denominator < Format.binary64.limit) :
    ∃ exact, (ofRatio negative numerator denominator).toRat? = some exact := by
  rw [ofRatio]
  split_ifs with isZero
  · exact ⟨_, rfl⟩
  · exact exists_toRat?_ofRank ((rank_lt_iff isZero divides).mpr below)

/-! ### Numbers of 32 bits -/

/-- A quotient below the limit of numbers of 32 bits is rounded to a finite one. -/
theorem exists_toRat?_singleOfRatio (divides : denominator ≠ 0)
    (below : (numerator : ℚ) / denominator < Format.binary32.limit) :
    ∃ exact, (singleOfRatio negative numerator denominator).toRat? = some exact := by
  rw [singleOfRatio]
  split_ifs with isZero
  · exact ⟨_, rfl⟩
  · have precise : 0 < Format.binary32.precision := by decide
    have within : Format.binary32.overflows (Format.binary32.round numerator denominator) =
        false := by
      rw [Bool.eq_false_iff, Ne,
        Format.overflows_round_iff isZero divides precise (by decide), not_le]
      exact below
    obtain ⟨_, _, most⟩ := Format.round_bounds isZero divides precise
    simp only [within, Bool.false_eq_true, if_false]
    generalize Format.binary32.round numerator denominator = rounded at within most
    have unit : rounded.2 ≤ 104 :=
      Int.not_lt.mp (of_decide_eq_false (Bool.or_eq_false_iff.mp within).1)
    refine exists_toRat?_ofRatio (Nat.two_pow_pos _).ne' ?_
    have value : ((rounded.1 * Nat.pow 2 rounded.2.toNat : Nat) : ℚ) /
        (Nat.pow 2 (-rounded.2).toNat : Nat) = rounded.1 * 2 ^ rounded.2 := by
      rw [two_zpow_eq, Nat.cast_mul, mul_div_assoc]
      rfl
    have significand : (rounded.1 : ℚ) ≤ 2 ^ 24 := by exact_mod_cast most
    rw [value]
    calc (rounded.1 : ℚ) * 2 ^ rounded.2 ≤ 2 ^ 24 * 2 ^ (104 : Int) :=
          mul_le_mul significand (zpow_le_zpow_right₀ one_le_two unit)
            (zpow_pos two_pos _).le (by norm_num)
      _ < 2 ^ (1023 : Int) := by
          rw [← zpow_natCast, ← zpow_add₀ two_ne_zero]
          exact zpow_lt_zpow_right₀ one_lt_two (by decide)
      _ ≤ Format.binary64.limit := (Format.limit_bounds (by decide)).1

/-- From the limit on, a quotient becomes infinite. -/
theorem singleOfRatio_of_limit_le (divides : denominator ≠ 0)
    (reached : Format.binary32.limit ≤ (numerator : ℚ) / denominator) :
    singleOfRatio negative numerator denominator = .infinite negative := by
  have nonzero : numerator ≠ 0 := by
    rintro rfl
    norm_num [Format.limit_binary32] at reached
  have overflows : Format.binary32.overflows (Format.binary32.round numerator denominator) =
      true :=
    (Format.overflows_round_iff nonzero divides (by decide) (by decide)).mpr reached
  simp only [singleOfRatio, nonzero, if_false, overflows, if_true]

end Double

end Facet
