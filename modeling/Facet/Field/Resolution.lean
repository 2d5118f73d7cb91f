import Facet.Field.Expr
import Facet.Field.Path
import Facet.Text.Case

/-!
The path that a field expression stands for.

Owns:
- `FieldExpr.resolve`: a property contributes its name with a lower-case first letter, a named
  field the segments of its constant name as they are;
- resolution below a scope, and the dotted text of the result.

An expression that is not a chain of accesses from the document has no path, and is reported
in its displayed form as a whole.
-/

namespace Facet.FieldExpr

/-- The segments that an expression contributes, outermost first. The document itself
contributes none, but only below an access. -/
def segments (whole : FieldExpr) : FieldExpr → Except Error (List String)
  | .member target name => do
      let outer ← if target.isRoot then .ok [] else segments whole target
      return outer ++ [String.ofList (Text.lowerFirst name.toList)]
  | .named target name => do
      let outer ← if target.isRoot then .ok [] else segments whole target
      let inner ← name.constant
      return outer ++ Path.segmentsOf inner
  | .root => .error (.unresolvableField (.document whole.display))
  | .call _ method => .error (.unresolvableField (.methodCall whole.display method))
  | .constant _ => .error (.unresolvableField (.constant whole.display))

/-- The path of an expression. -/
def resolve (field : FieldExpr) : Except Error Path := do
  Path.ofSegments (← segments field field)

/-- The path of an expression below a scope. -/
def resolveWithin (scope : Option Path) (field : FieldExpr) : Except Error Path := do
  return (← field.resolve).within scope

/-- The dotted text of the path of an expression. -/
def wire (field : FieldExpr) : Except Error String := do
  return (← field.resolve).wire

/-- The dotted text of the path of an expression below a scope. -/
def wireWithin (scope : Option Path) (field : FieldExpr) : Except Error String := do
  return (← field.resolveWithin scope).wire

end Facet.FieldExpr
