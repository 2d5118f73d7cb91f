import Facet.Double.Rounding

/-!
JSON values whose objects keep the order of their members.

Owns:
- the type, with integers and doubles told apart: `5` and `5.0` are different values;
- views of a value as one kind, and look-up of members;
- insertion of members: a repeated name keeps its place and takes the later value;
- equality up to the numeric equality of doubles.

Does not own: the text form.
-/

namespace Facet

/-- A JSON number: an integer that fits 64 bits, signed or unsigned, or a double. -/
inductive Number where
  | integer (value : Int)
  | double (value : Double)
deriving DecidableEq, Repr

namespace Number

/-- The double nearest to a number. -/
def toDouble : Number → Double
  | .integer value => .ofInt value
  | .double value => value

def same : Number → Number → Bool
  | .integer left, .integer right => left == right
  | .double left, .double right => left.same right
  | _, _ => false

end Number

/-! ### Values -/

/-- A JSON value. -/
inductive Json where
  | null
  | bool (value : Bool)
  | number (value : Number)
  | string (value : String)
  | array (items : List Json)
  | object (members : List (String × Json))
deriving Repr, Inhabited

/-! ### Members -/

/-- The members of a JSON object, in order. -/
abbrev Members := List (String × Json)

namespace Members

/-- The value of a member. -/
def find? (members : Members) (name : String) : Option Json :=
  members.lookup name

def names (members : Members) : List String :=
  members.map Prod.fst

/-- Sets a member: in its place if it is there, and otherwise at the end. -/
def insert : Members → String → Json → Members
  | [], name, value => [(name, value)]
  | member :: rest, name, value =>
      if member.1 = name then (name, value) :: rest else member :: insert rest name value

/-- The object that results from setting the members one after the other. -/
def ofList (members : List (String × Json)) : Members :=
  members.foldl (fun built member => insert built member.1 member.2) []

end Members

/-! ### Making and viewing values -/

namespace Json

def ofInt (value : Int) : Json := .number (.integer value)

def ofNat (value : Nat) : Json := .number (.integer value)

/-- A double as a JSON value; one that is not finite has no number and becomes null. -/
def ofDouble : Double → Json
  | .finite negative biased fraction => .number (.double (.finite negative biased fraction))
  | _ => .null

def ofStrings (texts : List String) : Json := .array (texts.map .string)

def isNull : Json → Bool
  | .null => true
  | _ => false

def isObject : Json → Bool
  | .object _ => true
  | _ => false

def asBool? : Json → Option Bool
  | .bool value => some value
  | _ => none

def asString? : Json → Option String
  | .string value => some value
  | _ => none

def asArray? : Json → Option (List Json)
  | .array items => some items
  | _ => none

def asObject? : Json → Option Members
  | .object members => some members
  | _ => none

def asInt? : Json → Option Int
  | .number (.integer value) => some value
  | _ => none

/-- A value as a natural number; a double is none, even if it is whole. -/
def asNat? : Json → Option Nat
  | .number (.integer (.ofNat value)) => some value
  | _ => none

/-- A number as the nearest double. -/
def asDouble? : Json → Option Double
  | .number value => some value.toDouble
  | _ => none

/-- A member of an object; other values have no members. -/
def get? : Json → String → Option Json
  | .object members, name => Members.find? members name
  | _, _ => none

/-- The kind of a value in words. -/
def kind : Json → String
  | .null => "null"
  | .bool _ => "a boolean"
  | .number _ => "a number"
  | .string _ => "a string"
  | .array _ => "an array"
  | .object _ => "an object"

/-! ### Equality -/

mutual

/-- Equality of values. Numbers compare numerically within one representation; objects
compare member by member, in order. -/
def same : Json → Json → Bool
  | .null, .null => true
  | .bool left, .bool right => left == right
  | .number left, .number right => left.same right
  | .string left, .string right => left == right
  | .array left, .array right => sameItems left right
  | .object left, .object right => sameMembers left right
  | _, _ => false

def sameItems : List Json → List Json → Bool
  | [], [] => true
  | left :: lefts, right :: rights => same left right && sameItems lefts rights
  | _, _ => false

def sameMembers : List (String × Json) → List (String × Json) → Bool
  | [], [] => true
  | (leftName, left) :: lefts, (rightName, right) :: rights =>
      leftName == rightName && same left right && sameMembers lefts rights
  | _, _ => false

end

end Json

end Facet
