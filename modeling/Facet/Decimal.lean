import Facet.Double.Rounding

/-!
Decimals with a coefficient of 96 bits and up to 28 places.

Owns:
- exact decimals from integers;
- `Decimal.ofDouble?`, which trades the powers of two of a double for powers of ten as long
  as the coefficient has room, and then keeps as many places as the double is precise;
- the written form.

Does not own: arithmetic on decimals.
-/

namespace Facet

/-- `coefficient / 10 ^ places`, with a sign. -/
structure Decimal where
  negative : Bool
  coefficient : Nat
  places : Nat
deriving DecidableEq, Repr

namespace Decimal

/-- Coefficients stay below this bound. -/
def capacity : Nat := Nat.pow 2 96

def ofInt (value : Int) : Decimal :=
  ⟨decide (value < 0), value.natAbs, 0⟩

/-- A coefficient and a power of ten. -/
structure Scaled where
  coefficient : Nat
  tens : Int
deriving DecidableEq, Repr

namespace Scaled

/-- Multiplies by five, `steps` times. An even coefficient is halved against a power of ten;
an odd one is multiplied itself, or, without room, halved with the loss of its last bit. -/
def timesFive : Nat → Scaled → Scaled
  | 0, value => value
  | steps + 1, ⟨coefficient, tens⟩ =>
      if coefficient % 2 = 0 then timesFive steps ⟨coefficient / 2, tens + 1⟩
      else if 5 * coefficient < capacity then timesFive steps ⟨5 * coefficient, tens⟩
      else timesFive steps ⟨coefficient / 2, tens + 1⟩

/-- Divides by five, `steps` times. The coefficient is doubled against a power of ten while
there is room, and is then divided itself, with the loss of the remainder. -/
def overFive : Nat → Scaled → Scaled
  | 0, value => value
  | steps + 1, ⟨coefficient, tens⟩ =>
      if coefficient < capacity / 2 then overFive steps ⟨2 * coefficient, tens - 1⟩
      else overFive steps ⟨coefficient / 5, tens⟩

/-- Divides by ten, rounding halves up. -/
def dropPlace (coefficient : Nat) : Nat :=
  if coefficient % 10 < 5 then coefficient / 10 else coefficient / 10 + 1

/-- Keeps at most `places` places; a coefficient that has only one digit left vanishes. -/
def limitPlaces (places : Nat) : Nat → Scaled → Scaled
  | 0, value => value
  | steps + 1, ⟨coefficient, tens⟩ =>
      if -(places : Int) ≤ tens then ⟨coefficient, tens⟩
      else if coefficient / 10 = 0 then ⟨0, 0⟩
      else limitPlaces places steps ⟨dropPlace coefficient, tens + 1⟩

/-- Drops places until the coefficient is below `bound`. -/
def limitCoefficient (bound : Nat) : Nat → Scaled → Scaled
  | 0, value => value
  | steps + 1, ⟨coefficient, tens⟩ =>
      if coefficient < bound ∨ 0 ≤ tens then ⟨coefficient, tens⟩
      else limitCoefficient bound steps ⟨dropPlace coefficient, tens + 1⟩

/-- Drops the zeros at the end of the places. -/
def dropZeros : Nat → Scaled → Scaled
  | 0, value => value
  | steps + 1, ⟨coefficient, tens⟩ =>
      if tens < 0 ∧ coefficient % 10 = 0 then dropZeros steps ⟨coefficient / 10, tens + 1⟩
      else ⟨coefficient, tens⟩

end Scaled

/-- The decimal for a finite double, unless it is too large. A power of two is the same power
of ten over the same power of five. -/
def ofDouble? : Double → Option Decimal
  | .finite negative biased fraction =>
      let digits := Double.significand biased fraction
      if digits = 0 then
        some ⟨negative, 0, 0⟩
      else
        let unit := Double.exponent biased
        let tenfold : Scaled := ⟨digits, unit⟩
        let traded := Scaled.overFive unit.toNat (Scaled.timesFive (-unit).toNat tenfold)
        if capacity ≤ traded.coefficient * Nat.pow 10 traded.tens.toNat then
          none
        else
          let whole : Scaled :=
            ⟨traded.coefficient * Nat.pow 10 traded.tens.toNat, min traded.tens 0⟩
          let placed := Scaled.limitPlaces 28 whole.tens.natAbs whole
          let precise := Scaled.limitCoefficient (Nat.pow 2 52) placed.tens.natAbs placed
          let trimmed := Scaled.dropZeros precise.tens.natAbs precise
          some ⟨negative && trimmed.coefficient != 0, trimmed.coefficient, trimmed.tens.natAbs⟩
  | _ => none

/-- The written form has exactly the places of the decimal. -/
def text (value : Decimal) : String :=
  let sign := if value.negative then "-" else ""
  let digits := Nat.toDigits 10 value.coefficient
  let padded := List.replicate (value.places + 1 - digits.length) '0' ++ digits
  let whole := padded.take (padded.length - value.places)
  let places := padded.drop (padded.length - value.places)
  sign ++ String.ofList (if places.isEmpty then whole else whole ++ '.' :: places)

end Decimal

end Facet
