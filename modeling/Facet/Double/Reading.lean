import Facet.Double.Rounding
import Facet.Text.Number

/-!
Reading doubles from decimal text.

Owns:
- `DecimalText`, the parts of a decimal as written, and their value;
- `Double.ofChars?`, the free form: a point may begin or end the digits, and infinity and
  `nan` are words in any mix of cases.

Does not own: the stricter grammar of JSON numbers, which is a condition on `DecimalText`.
-/

namespace Facet

/-- The parts of a decimal as written: `fraction` and `exponent` are absent when there is no
point, or no exponent mark. -/
structure DecimalText where
  sign : Option Char
  whole : List Char
  fraction : Option (List Char)
  exponent : Option Int
deriving DecidableEq, Repr

namespace DecimalText

/-- A leading sign, and what follows it. -/
def splitSign : List Char → Option Char × List Char
  | '-' :: rest => (some '-', rest)
  | '+' :: rest => (some '+', rest)
  | rest => (none, rest)

/-- The exponent after its mark: an optional sign and at least one digit, up to the end. -/
def readExponent? (chars : List Char) : Option Int :=
  let (sign, digits) := splitSign chars
  (Text.readDigits? digits).map fun value => Double.signed (sign == some '-') value

/-- What may follow the digits: nothing, or an exponent. -/
def readTail? : List Char → Option (Option Int)
  | [] => some none
  | mark :: rest =>
      if mark = 'e' ∨ mark = 'E' then (readExponent? rest).map some else none

/-- Splits a text into the parts of a decimal; any of the digit rows may be empty. -/
def ofChars? (chars : List Char) : Option DecimalText :=
  let (sign, unsigned) := splitSign chars
  let whole := unsigned.takeWhile Char.isDigit
  match unsigned.dropWhile Char.isDigit with
  | '.' :: rest =>
      let fraction := rest.takeWhile Char.isDigit
      (readTail? (rest.dropWhile Char.isDigit)).map (⟨sign, whole, some fraction, ·⟩)
  | rest => (readTail? rest).map (⟨sign, whole, none, ·⟩)

/-- Whether there is a digit before the exponent. -/
def hasDigits (text : DecimalText) : Bool :=
  !text.whole.isEmpty || !(text.fraction.getD []).isEmpty

/-- The double nearest to a decimal. -/
def toDouble (text : DecimalText) : Double :=
  let fraction := text.fraction.getD []
  Double.ofDecimal (text.sign == some '-') (Nat.ofDigitChars 10 (text.whole ++ fraction) 0)
    (text.exponent.getD 0 - fraction.length)

end DecimalText

namespace Double

/-- A word for a double without digits. -/
def ofWord? (negative : Bool) (word : List Char) : Option Double :=
  let lower := word.map Char.toLower
  if lower = "nan".toList then some .nan
  else if lower = "inf".toList ∨ lower = "infinity".toList then some (.infinite negative)
  else none

/-- Reads a decimal in the free form, or a word for a double without digits. -/
def ofChars? (chars : List Char) : Option Double :=
  match DecimalText.ofChars? chars with
  | some text => if text.hasDigits then some text.toDouble else none
  | none =>
      let (sign, word) := DecimalText.splitSign chars
      ofWord? (sign == some '-') word

end Double

end Facet
