import Facet.Double.Shortest

/-!
The written forms of doubles: where the point stands, when an exponent is written, and how
the values that are not finite are spelled.

Owns:
- `Layout`, the decisions of one written form;
- `Layout.json`, the form of numbers in JSON text;
- `Layout.plain`, the form of numbers in displayed expressions and in names.
-/

namespace Facet.Double

/-- The decisions of one written form of finite doubles. -/
structure Layout where
  tie : Tie
  /-- The exponents of the first digit from which on, and below which, no exponent is written. -/
  positional : Option (Int × Int)
  /-- What follows a whole number that is written without an exponent. -/
  wholeMark : List Char

namespace Layout

/-- JSON numbers have a point or an exponent, are positional from 10^-5 to below 10^16, and
send a half to the even digit. -/
def json : Layout :=
  ⟨.toEven, some (-5, 16), ['.', '0']⟩

/-- Plain numbers never have an exponent, have no point on whole values, and send a half
away from zero. -/
def plain : Layout :=
  ⟨.awayFromZero, none, []⟩

/-- A numeral without an exponent. -/
def positionalText (layout : Layout) (numeral : Numeral) : List Char :=
  if numeral.exponent < 0 then
    '0' :: '.' :: List.replicate (-numeral.exponent - 1).toNat '0' ++ numeral.digits
  else
    let whole := numeral.exponent.toNat + 1
    if numeral.digits.length ≤ whole then
      numeral.digits ++ List.replicate (whole - numeral.digits.length) '0' ++ layout.wholeMark
    else
      numeral.digits.take whole ++ '.' :: numeral.digits.drop whole

/-- A numeral with one digit before the point and an exponent that always has its sign. -/
def scientificText (numeral : Numeral) : List Char :=
  let point := if numeral.digits.length ≤ 1 then [] else ['.']
  let sign := if numeral.exponent < 0 then '-' else '+'
  numeral.digits.take 1 ++ point ++ numeral.digits.drop 1 ++
    'e' :: sign :: Nat.toDigits 10 numeral.exponent.natAbs

/-- Whether a numeral is written without an exponent. -/
def isPositional (layout : Layout) (numeral : Numeral) : Bool :=
  match layout.positional with
  | none => true
  | some (least, limit) => decide (least ≤ numeral.exponent ∧ numeral.exponent < limit)

def numeralText (layout : Layout) (numeral : Numeral) : List Char :=
  if layout.isPositional numeral then layout.positionalText numeral else scientificText numeral

end Layout

def signText (negative : Bool) : List Char :=
  if negative then ['-'] else []

/-- The characters of a finite double, given by its fields. The sign of zero is written. -/
def Layout.finiteText (layout : Layout) (negative : Bool) (biased : Fin 2047)
    (fraction : Fin (Nat.pow 2 52)) : List Char :=
  signText negative ++ layout.numeralText (shortest layout.tie biased fraction)

/-- The text of a double in JSON. A double that is not finite has no number there. -/
def jsonText : Double → String
  | .finite negative biased fraction =>
      String.ofList (Layout.json.finiteText negative biased fraction)
  | _ => "null"

/-- The text of a double in displayed expressions and in names. -/
def plainText : Double → String
  | .finite negative biased fraction =>
      String.ofList (Layout.plain.finiteText negative biased fraction)
  | .infinite negative => String.ofList (signText negative ++ ['i', 'n', 'f'])
  | .nan => "NaN"

end Facet.Double
