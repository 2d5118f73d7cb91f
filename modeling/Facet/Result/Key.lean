import Facet.Integer
import Facet.Json.Printer
import Facet.Traced

/-!
Keys of buckets, and their conversion to typed values.

Owns:
- `Key`, the raw key with the engine's own text for it, if there is one;
- `KeyReader`, a named conversion of texts that may refuse;
- the texts of a key that are tried, in order.
-/

namespace Facet

/-- A conversion of key texts, with the name of what it converts to. -/
structure KeyReader (α : Type) where
  target : String
  read : String → Option α

namespace KeyReader

/-- A reader whose values are passed on through a function. -/
def map {α β : Type} (change : α → β) (reader : KeyReader α) : KeyReader β where
  target := reader.target
  read word := (reader.read word).map change

/-- Any text. -/
def text : KeyReader String :=
  ⟨"alloc::string::String", some⟩

/-- The words for true and false. -/
def bool : KeyReader Bool where
  target := "bool"
  read word := if word = "true" then some true else if word = "false" then some false else none

/-- A text of one character. -/
def char : KeyReader Char where
  target := "char"
  read word :=
    match word.toList with
    | [single] => some single
    | _ => none

def integer (type : IntegerType) : KeyReader Int where
  target := type.name
  read word := type.ofChars? word.toList

def double : KeyReader Double where
  target := "f64"
  read word := Double.ofChars? word.toList

end KeyReader

/-- The key of a bucket. -/
structure Key where
  raw : Json
  text : Option String
deriving Repr

namespace Key

/-- The whole number that a double key below 2^63 in magnitude equals, as text. -/
def wholeText? (value : Double) : Option String :=
  match value.toInt? with
  | some whole => if whole.natAbs < Nat.pow 2 63 then some (toString whole) else none
  | none => none

/-- The texts of a raw key. A number has its own text, and then that of the whole number it
equals. -/
def rawTexts : Json → List String
  | .string value => [value]
  | .number value => value.text :: (wholeText? value.toDouble).toList
  | .bool value => [if value then "true" else "false"]
  | _ => []

/-- The texts that a conversion tries, in order: the engine's own text comes first. -/
def texts (key : Key) : List String :=
  key.text.toList ++ rawTexts key.raw

/-- Converts the first text that the reader accepts. The name is that of the aggregation. -/
def read {α : Type} (key : Key) (reader : KeyReader α) (name : String) : Traced α :=
  match key.texts.findSome? reader.read with
  | some value => pure value
  | none =>
      Traced.failWith .coercionFailed [("name", name)]
        (.coercion name key.raw.render reader.target)

end Key

end Facet
