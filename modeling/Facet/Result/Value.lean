import Facet.Decimal
import Facet.Integer
import Facet.Json.Basic

/-!
Typed values from the JSON value of a metric.

Owns:
- `ValueReader`, a named conversion that may refuse;
- readers of integers, of floating-point numbers of both widths, and of decimals;
- optional readers, for which null is no value.

Integers are read exactly or not at all; the floating-point readers round to the nearest
number.
-/

namespace Facet

/-- A conversion of metric values, with the name of what it converts to. -/
structure ValueReader (α : Type) where
  target : String
  read : Json → Option α

namespace ValueReader

/-- A reader whose values are passed on through a function. -/
def map {α β : Type} (change : α → β) (reader : ValueReader α) : ValueReader β where
  target := reader.target
  read value := (reader.read value).map change

/-- Integers of a width: integers in range, and doubles that equal one. -/
def integer (type : IntegerType) : ValueReader Int where
  target := type.name
  read
    | .number (.integer value) => type.check? value
    | .number (.double value) => value.toInt?.bind type.check?
    | _ => none

/-- Doubles, from any number. -/
def double : ValueReader Double where
  target := "f64"
  read := Json.asDouble?

/-- Floating-point numbers of 32 bits, from any number. -/
def single : ValueReader Double where
  target := "f32"
  read
    | .number (.integer value) => some (.singleOfInt value)
    | .number (.double value) => some value.toSingle
    | _ => none

def decimal : ValueReader Decimal where
  target := "Decimal"
  read
    | .number (.integer value) => some (.ofInt value)
    | .number (.double value) => Decimal.ofDouble? value
    | _ => none

/-- Reads null as no value, under the name of what the value would be. -/
def optional {α : Type} (reader : ValueReader α) : ValueReader (Option α) where
  target := reader.target
  read
    | .null => some none
    | value => (reader.read value).map some

end ValueReader

end Facet
