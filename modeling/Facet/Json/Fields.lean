import Facet.Json.Basic

/-!
Reading a JSON value as a record of named fields.

Owns:
- `Fields`, a record given by its members, or by the row of its values;
- `Fields.take`, which reads the next field, and `Fields.finish`, which ends the record;
- readers of values that records are made of.

Members that no field asks for are ignored; values beyond the last field of a row are refused.
-/

namespace Facet.Json

/-- The part of a record that is still to be read. -/
inductive Fields where
  | named (members : Members)
  | row (values : List Json)

namespace Fields

/-- Objects and arrays can be read as records. -/
def ofJson? : Json → Option Fields
  | .object members => some (.named members)
  | .array values => some (.row values)
  | _ => none

/-- Reads a field. A field that is missing has one default in an object and another in a row,
if it may be missing there at all. -/
def take {α : Type} (fields : Fields) (name : String) (read : Json → Option α)
    (missingMember missingValue : Option α) : Option (α × Fields) :=
  match fields with
  | .named members =>
      match Members.find? members name with
      | some value => (read value).map (·, fields)
      | none => missingMember.map (·, fields)
  | .row [] => missingValue.map (·, fields)
  | .row (value :: rest) => (read value).map (·, .row rest)

/-- Ends a record: a row must be used up. -/
def finish {α : Type} (fields : Fields) (value : α) : Option α :=
  match fields with
  | .row (_ :: _) => none
  | _ => some value

end Fields

/-- A natural number that fits 32 bits. -/
def asNat32? (value : Json) : Option Nat :=
  value.asNat?.filter (· < Nat.pow 2 32)

/-- An array whose items can all be read. -/
def asListOf? {α : Type} (read : Json → Option α) (value : Json) : Option (List α) :=
  value.asArray?.bind fun items => items.mapM read

/-- A value that may be null. -/
def asOptional? {α : Type} (read : Json → Option α) : Json → Option (Option α)
  | .null => some none
  | value => (read value).map some

end Facet.Json
