import Facet.Double.Basic

/-!
The shortest decimal that reads back as a given double, and the nearest one of that length.

A decimal reads back as the double exactly if it lies in the interval of reals that round to
it; the ends belong to the interval if and only if the significand is even. For each number
of digits in turn, only the two grid points next to the value need to be tested: if any grid
point lies in the interval, so does one of these two.

Does not own: where the point or an exponent is written.
-/

namespace Facet.Double

/-- What happens when two decimals of the shortest length are equally near. -/
inductive Tie where
  | toEven
  | awayFromZero
deriving DecidableEq, Repr

/-- Decimal digits, without zeros at the end, and the power of ten of the first digit. -/
structure Numeral where
  digits : List Char
  exponent : Int
deriving DecidableEq, Repr

namespace Numeral

def zero : Numeral := ⟨['0'], 0⟩

/-- The numeral of `coefficient * 10 ^ power`. -/
def ofScaled (coefficient : Nat) (power : Int) : Numeral :=
  let digits := Nat.toDigits 10 coefficient
  { digits := (digits.reverse.dropWhile (· == '0')).reverse
    exponent := power + digits.length - 1 }

end Numeral

/-- The interval of reals that round to a double, in quarters of its unit, on a scale on
which both the quarters (`quarter`) and one step of a decimal grid (`step`) are integers. -/
structure Neighbourhood where
  low : Nat
  value : Nat
  high : Nat
  closed : Bool
  step : Nat
deriving DecidableEq, Repr

namespace Neighbourhood

/-- The interval around `significand * 2 ^ unit`, measured against steps of `10 ^ power`.
Below a power of two the neighbouring double is half as far away. -/
def around (biased : Fin 2047) (fraction : Fin (Nat.pow 2 52)) (power : Int) : Neighbourhood :=
  let digits := significand biased fraction
  let unit := exponent biased - 2
  let quarter := Nat.pow 2 unit.toNat * Nat.pow 10 (-power).toNat
  let below := if fraction.val = 0 ∧ 1 < biased.val then 1 else 2
  { low := (4 * digits - below) * quarter
    value := 4 * digits * quarter
    high := (4 * digits + 2) * quarter
    closed := digits % 2 == 0
    step := Nat.pow 10 power.toNat * Nat.pow 2 (-unit).toNat }

/-- Whether the grid point number `point` reads back as the double. -/
def admits (region : Neighbourhood) (point : Nat) : Bool :=
  let place := point * region.step
  if region.closed then region.low ≤ place && place ≤ region.high
  else region.low < place && place < region.high

/-- The grid point that reads back as the double and is nearest to it, if any does. -/
def nearestPoint? (region : Neighbourhood) (tie : Tie) : Option Nat :=
  let lower := region.value / region.step
  let upper := lower + 1
  match region.admits lower, region.admits upper with
  | false, false => none
  | true, false => some lower
  | false, true => some upper
  | true, true =>
      let excess := 2 * (region.value - lower * region.step)
      if excess < region.step then some lower
      else if region.step < excess then some upper
      else
        match tie with
        | .toEven => some (lower + lower % 2)
        | .awayFromZero => some upper

end Neighbourhood

/-- The power of ten of the first digit of a positive quotient. -/
def leadingTen (numerator denominator : Nat) : Int :=
  if denominator ≤ numerator then
    ((Nat.toDigits 10 (numerator / denominator)).length : Int) - 1
  else
    let places := (Nat.toDigits 10 (denominator / numerator)).length
    if denominator ≤ numerator * Nat.pow 10 (places - 1) then -((places : Int) - 1) else -places

/-- The shortest decimal that reads back as the finite double with these fields. Seventeen
digits always suffice. -/
def shortest (tie : Tie) (biased : Fin 2047) (fraction : Fin (Nat.pow 2 52)) : Numeral :=
  let digits := significand biased fraction
  if digits = 0 then
    .zero
  else
    let unit := exponent biased
    let first := leadingTen (digits * Nat.pow 2 unit.toNat) (Nat.pow 2 (-unit).toNat)
    ((List.range 17).findSome? fun (more : Nat) =>
      let power := first - more
      ((Neighbourhood.around biased fraction power).nearestPoint? tie).map
        fun point => Numeral.ofScaled point power).getD .zero

end Facet.Double
