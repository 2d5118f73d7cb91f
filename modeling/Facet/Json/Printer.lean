import Facet.Double.Layout
import Facet.Json.Basic
import Facet.Text.Quoted

/-!
The compact text of JSON values: no spaces, members in their order, characters beyond ASCII
as they are.
-/

namespace Facet

/-- The text of a JSON number. -/
def Number.text : Number → String
  | .integer value => toString value
  | .double value => value.jsonText

namespace Json

mutual

/-- The compact text of a value. -/
def render : Json → String
  | .null => "null"
  | .bool true => "true"
  | .bool false => "false"
  | .number value => value.text
  | .string value => Text.Quotation.json.quote value
  | .array items => "[" ++ ",".intercalate (renderItems items) ++ "]"
  | .object members => "\x7b" ++ ",".intercalate (renderMembers members) ++ "\x7d"

def renderItems : List Json → List String
  | [] => []
  | item :: items => render item :: renderItems items

def renderMembers : List (String × Json) → List String
  | [] => []
  | (name, value) :: members =>
      (Text.Quotation.json.quote name ++ ":" ++ render value) :: renderMembers members

end

end Json

end Facet
