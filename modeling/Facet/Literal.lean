import Facet.Double.Layout
import Facet.Error
import Facet.Instant
import Facet.Json.Basic

/-!
Literal operands of comparisons.

Owns:
- the kinds of literals and their names;
- the value of a literal in a query, its text in a signature, and its displayed form.

Byte strings and lists have no form in a query; doubles that are not finite have none either,
but do have a text.
-/

namespace Facet

/-- A literal operand. An enumerated value is known by its name. -/
inductive Literal where
  | null
  | bool (value : Bool)
  | integer (value : Int)
  | float (value : Double)
  | string (value : String)
  | enumerated (name : String)
  | instant (value : Instant)
  | bytes (octets : List UInt8)
  | list (items : List Literal)
deriving Repr

namespace Literal

/-- The name of a literal's kind. -/
def kind : Literal → String
  | .null => "null"
  | .bool _ => "bool"
  | .integer _ => "integer"
  | .float _ => "float"
  | .string _ => "string"
  | .enumerated _ => "enum"
  | .instant _ => "datetime"
  | .bytes _ => "bytes"
  | .list _ => "list"

def isNull : Literal → Bool
  | .null => true
  | _ => false

/-- The literal in a query. -/
def toJson (context : String) : Literal → Except Error Json
  | .null => .ok .null
  | .bool value => .ok (.bool value)
  | .integer value => .ok (.ofInt value)
  | .float (.finite negative biased fraction) =>
      .ok (.number (.double (.finite negative biased fraction)))
  | .float _ => .error (.unsupportedLiteral "non-finite float" context)
  | .string value => .ok (.string value)
  | .enumerated name => .ok (.string name)
  | .instant value => .ok (.string value.text)
  | .bytes octets => .error (.unsupportedLiteral (kind (.bytes octets)) context)
  | .list items => .error (.unsupportedLiteral (kind (.list items)) context)

/-- The literal in the signature of a predicate. -/
def signatureText (context : String) : Literal → Except Error String
  | .null => .ok "null"
  | .bool value => .ok (if value then "true" else "false")
  | .integer value => .ok (toString value)
  | .float value => .ok value.plainText
  | .string value => .ok value
  | .enumerated name => .ok name
  | .instant value => .ok value.text
  | .bytes octets => .error (.unsupportedLiteral (kind (.bytes octets)) context)
  | .list items => .error (.unsupportedLiteral (kind (.list items)) context)

/-- The literal as it is shown to people. -/
def display : Literal → String
  | .null => "null"
  | .bool value => if value then "true" else "false"
  | .integer value => toString value
  | .float value => value.plainText
  | .string value => s!"\"{value}\""
  | .enumerated name => name
  | .instant value => value.text
  | .bytes octets => s!"<{octets.length} bytes>"
  | .list items => s!"<list of {items.length}>"

end Literal

end Facet
