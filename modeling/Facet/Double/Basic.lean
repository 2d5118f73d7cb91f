/-!
Binary floating-point numbers of 64 bits, by the fields of their interchange form.

Owns:
- the type `Double`, its significand and exponent;
- numeric equality, under which the two zeros are equal and `nan` equals nothing;
- the integer that a double stands for, when it stands for one.

Does not own: rounding into the type, or its decimal text.
-/

namespace Facet

/-- A binary floating-point number. A finite one has a biased exponent below 2047 and
52 fraction bits, so every value of the type is a number of the format. -/
inductive Double where
  | nan
  | infinite (negative : Bool)
  | finite (negative : Bool) (biased : Fin 2047) (fraction : Fin (Nat.pow 2 52))
deriving DecidableEq, Repr

namespace Double

/-- The significand as an integer: normal numbers have a leading one above the fraction. -/
def significand (biased : Fin 2047) (fraction : Fin (Nat.pow 2 52)) : Nat :=
  if biased.val = 0 then fraction.val else Nat.pow 2 52 + fraction.val

/-- The power of two that one unit of the significand stands for. -/
def exponent (biased : Fin 2047) : Int :=
  (max biased.val 1 : Nat) - 1075

/-- Zero, of either sign. -/
def zero (negative : Bool) : Double :=
  .finite negative ⟨0, by omega⟩ ⟨0, Nat.two_pow_pos 52⟩

def isZero : Double → Bool
  | .finite _ biased fraction => significand biased fraction == 0
  | _ => false

/-- Numeric equality. -/
def same (left right : Double) : Bool :=
  match left with
  | .nan => false
  | _ => decide (left = right) || (left.isZero && right.isZero)

/-- An integer from a sign and an absolute value. -/
def signed (negative : Bool) (magnitude : Nat) : Int :=
  if negative then -(magnitude : Int) else magnitude

/-- Whether a finite double has no fraction. -/
def isWhole : Double → Bool
  | .finite _ biased fraction =>
      let unit := exponent biased
      significand biased fraction * Nat.pow 2 unit.toNat % Nat.pow 2 (-unit).toNat == 0
  | _ => false

/-- A finite double with its fraction cut off. -/
def truncated? : Double → Option Int
  | .finite negative biased fraction =>
      let unit := exponent biased
      some (signed negative
        (significand biased fraction * Nat.pow 2 unit.toNat / Nat.pow 2 (-unit).toNat))
  | _ => none

/-- The integer that a double is exactly equal to, if there is one. -/
def toInt? (value : Double) : Option Int :=
  if value.isWhole then value.truncated? else none

theorem toInt?_zero (negative : Bool) : toInt? (zero negative) = some 0 := by
  cases negative <;> simp [toInt?, isWhole, truncated?, zero, significand, signed]

end Double

end Facet
