import Facet.Double.Reading

/-!
Fixed-width integers, as ranges of the integers.

Owns:
- the widths that values can be asked for in, with their names;
- the check that an integer lies in a range;
- reading integers of a range from text.
-/

namespace Facet

/-- A range of integers with a name. -/
structure IntegerType where
  name : String
  least : Int
  greatest : Int
deriving DecidableEq, Repr

namespace IntegerType

def unsigned8 : IntegerType := ⟨"u8", 0, Int.pow 2 8 - 1⟩

def signed32 : IntegerType := ⟨"i32", -Int.pow 2 31, Int.pow 2 31 - 1⟩

def unsigned32 : IntegerType := ⟨"u32", 0, Int.pow 2 32 - 1⟩

def signed64 : IntegerType := ⟨"i64", -Int.pow 2 63, Int.pow 2 63 - 1⟩

def unsigned64 : IntegerType := ⟨"u64", 0, Int.pow 2 64 - 1⟩

/-- Sizes have the range of 64 bits without sign. -/
def size : IntegerType := ⟨"usize", 0, Int.pow 2 64 - 1⟩

/-- An integer, if it lies in the range. -/
def check? (type : IntegerType) (value : Int) : Option Int :=
  if type.least ≤ value ∧ value ≤ type.greatest then some value else none

def isSigned (type : IntegerType) : Bool :=
  type.least < 0

/-- Reads decimal digits after an optional sign. A range without negative numbers has no minus
sign, not even in front of zero. -/
def ofChars? (type : IntegerType) (chars : List Char) : Option Int :=
  let (sign, digits) := DecimalText.splitSign chars
  if sign = some '-' ∧ type.isSigned = false then
    none
  else
    (Text.readDigits? digits).bind fun magnitude =>
      type.check? (Double.signed (sign == some '-') magnitude)

end IntegerType

end Facet
