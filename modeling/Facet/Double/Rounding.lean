import Facet.Double.Basic

/-!
Rounding of exact quotients into binary formats, to the nearest number with halves going to
the even neighbour.

Owns:
- `Format.round`, the significand and exponent nearest to a positive quotient;
- doubles from integers, quotients and decimals;
- narrowing to the 32-bit format, with the result held as a double.

Does not own: reading decimal text.
-/

namespace Facet

/-- A binary format: how many bits a significand has, and the powers of two of the smallest
and the largest unit. -/
structure Format where
  precision : Nat
  leastUnit : Int
  greatestUnit : Int
deriving DecidableEq, Repr

namespace Format

def binary64 : Format := ⟨53, -1074, 971⟩

def binary32 : Format := ⟨24, -149, 104⟩

/-- The integer nearest to a quotient; a half goes to the even neighbour. -/
def nearest (numerator denominator : Nat) : Nat :=
  let quotient := numerator / denominator
  let remainder := numerator % denominator
  if 2 * remainder < denominator then quotient
  else if denominator < 2 * remainder then quotient + 1
  else quotient + quotient % 2

/-- Whether `2 ^ power` is at most the quotient. -/
def powerAtMost (power : Int) (numerator denominator : Nat) : Bool :=
  denominator * Nat.pow 2 power.toNat ≤ numerator * Nat.pow 2 (-power).toNat

/-- The largest power of two that is at most a positive quotient. -/
def leadingPower (numerator denominator : Nat) : Int :=
  let estimate : Int := (numerator.log2 : Int) - denominator.log2
  if powerAtMost estimate numerator denominator then estimate else estimate - 1

/-- The significand and unit of the number nearest to a positive quotient, as if the format
had no largest number. -/
def round (format : Format) (numerator denominator : Nat) : Nat × Int :=
  let unit := max format.leastUnit (leadingPower numerator denominator - (format.precision - 1))
  (nearest (numerator * Nat.pow 2 (-unit).toNat) (denominator * Nat.pow 2 unit.toNat), unit)

/-- Whether a rounded number lies above the largest number of the format. -/
def overflows (format : Format) (rounded : Nat × Int) : Bool :=
  format.greatestUnit < rounded.2 ||
    (rounded.2 == format.greatestUnit && Nat.pow 2 format.precision ≤ rounded.1)

end Format

namespace Double

/-- The double whose place in the increasing order of non-negative doubles is `rank`; from
the place of infinity on, infinity. -/
def ofRank (negative : Bool) (rank : Nat) : Double :=
  if below : rank < 2047 * Nat.pow 2 52 then
    .finite negative
      ⟨rank / Nat.pow 2 52, (Nat.div_lt_iff_lt_mul (Nat.two_pow_pos 52)).mpr below⟩
      ⟨rank % Nat.pow 2 52, Nat.mod_lt rank (Nat.two_pow_pos 52)⟩
  else
    .infinite negative

/-- The double nearest to a quotient. -/
def ofRatio (negative : Bool) (numerator denominator : Nat) : Double :=
  if numerator = 0 then
    zero negative
  else
    let rounded := Format.binary64.round numerator denominator
    ofRank negative ((rounded.2 + 1074).toNat * Nat.pow 2 52 + rounded.1)

/-- The double nearest to an integer. -/
def ofInt (value : Int) : Double :=
  ofRatio (decide (value < 0)) value.natAbs 1

/-- The double nearest to `digits * 10 ^ power`. Powers so far out that the answer is zero
or infinity whatever the digits are not computed. -/
def ofDecimal (negative : Bool) (digits : Nat) (power : Int) : Double :=
  if digits = 0 then
    zero negative
  else
    let magnitude := power + (Nat.toDigits 10 digits).length
    if 400 < magnitude then .infinite negative
    else if magnitude < -400 then zero negative
    else ofRatio negative (digits * Nat.pow 10 power.toNat) (Nat.pow 10 (-power).toNat)

/-- The number of the 32-bit format nearest to a quotient, as a double; magnitudes beyond the
largest number of that format become infinite. -/
def singleOfRatio (negative : Bool) (numerator denominator : Nat) : Double :=
  if numerator = 0 then
    zero negative
  else
    let rounded := Format.binary32.round numerator denominator
    if Format.binary32.overflows rounded then
      .infinite negative
    else
      ofRatio negative (rounded.1 * Nat.pow 2 rounded.2.toNat) (Nat.pow 2 (-rounded.2).toNat)

/-- The number of the 32-bit format nearest to an integer. -/
def singleOfInt (value : Int) : Double :=
  singleOfRatio (decide (value < 0)) value.natAbs 1

/-- The number of the 32-bit format nearest to a double. -/
def toSingle : Double → Double
  | .nan => .nan
  | .infinite negative => .infinite negative
  | .finite negative biased fraction =>
      let digits := significand biased fraction
      let unit := exponent biased
      singleOfRatio negative (digits * Nat.pow 2 unit.toNat) (Nat.pow 2 (-unit).toNat)

end Double

end Facet
