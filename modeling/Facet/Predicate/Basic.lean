import Facet.Field.Expr

/-!
Conditions on a document.

Owns:
- comparators, comparisons and predicates;
- their displayed forms, and the short names of predicate shapes.

Does not own: signatures and queries, which only some predicates have.
-/

namespace Facet

inductive Comparator where
  | less
  | lessOrEqual
  | greater
  | greaterOrEqual
deriving DecidableEq, Repr

namespace Comparator

def symbol : Comparator → String
  | .less => "<"
  | .lessOrEqual => "<="
  | .greater => ">"
  | .greaterOrEqual => ">="

/-- Whether a comparison bounds its field from below. -/
def isLower : Comparator → Bool
  | .greater | .greaterOrEqual => true
  | .less | .lessOrEqual => false

end Comparator

/-- A comparison of a field with a literal. -/
structure Comparison where
  comparator : Comparator
  field : FieldExpr
  value : Literal
deriving Repr

/-- A condition on a document. `flag` is a boolean property, `holds` a named field called as
a condition, and `call` any other method, which no query can express. -/
inductive Predicate where
  | and (left right : Predicate)
  | or (left right : Predicate)
  | not (inner : Predicate)
  | compare (comparison : Comparison)
  | equals (field : FieldExpr) (value : Literal)
  | notEquals (field : FieldExpr) (value : Literal)
  | flag (field : FieldExpr)
  | present (field : FieldExpr)
  | holds (field : FieldExpr)
  | any (collection : FieldExpr) (inner : Predicate)
  | call (target : FieldExpr) (method : String)
deriving Repr

namespace Predicate

/-- The short name of a predicate's shape, for diagnostics. -/
def shape : Predicate → String
  | .and _ _ => "and"
  | .or _ _ => "or"
  | .not _ => "not"
  | .compare _ => "compare"
  | .equals _ _ => "equals"
  | .notEquals _ _ => "not-equals"
  | .flag _ => "bool-flag"
  | .present _ => "exists"
  | .holds _ => "method-predicate"
  | .any _ _ => "any"
  | .call _ _ => "call"

def display : Predicate → String
  | .and left right => s!"({left.display} && {right.display})"
  | .or left right => s!"({left.display} || {right.display})"
  | .not inner => s!"!{inner.display}"
  | .compare ⟨comparator, field, value⟩ =>
      s!"{field.display} {comparator.symbol} {value.display}"
  | .equals field value => s!"{field.display} == {value.display}"
  | .notEquals field value => s!"{field.display} != {value.display}"
  | .flag field => field.display
  | .present field => s!"{field.display}.HasValue"
  | .holds field => field.display
  | .any collection inner => s!"{collection.display}.Any({inner.display})"
  | .call target method => s!"{target.display}.{method}()"

/-- The error for a method that no query can express. -/
def callFault (target : FieldExpr) (method : String) : Error :=
  .unsupportedPredicate (.noQueryForm method target.display)

end Predicate

end Facet
