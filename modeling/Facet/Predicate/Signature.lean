import Facet.Field.Resolution
import Facet.Predicate.Basic

/-!
Signatures: the text of a predicate that serves as the name of its filter.

Owns:
- `Predicate.spelling`, operands joined by the names of operators;
- `Predicate.signature`, the spelling without the characters that the engine refuses in names.

A chain of one operator that leans to the left is written flat; every other conjunction or
disjunction inside a predicate stands in parentheses.
-/

namespace Facet

namespace Comparator

/-- The name of a comparator in signatures. -/
def signatureName : Comparator → String
  | .less => "LessThan"
  | .lessOrEqual => "LessThanOrEqual"
  | .greater => "GreaterThan"
  | .greaterOrEqual => "GreaterThanOrEqual"

end Comparator

namespace Predicate

/-- The two connectives that join predicates. -/
inductive Connective where
  | and
  | or
deriving DecidableEq, Repr

def Connective.signatureName : Connective → String
  | .and => "AndAlso"
  | .or => "OrElse"

/-- The outermost connective of a predicate, if it has one. -/
def connective? : Predicate → Option Connective
  | .and _ _ => some .and
  | .or _ _ => some .or
  | _ => none

/-- A spelling in parentheses, if the predicate that it spells has a connective. -/
def grouped (predicate : Predicate) (spelling : String) : String :=
  if predicate.connective?.isSome then s!"({spelling})" else spelling

/-- The left operand of a connective: a chain of the same connective goes on without
parentheses. -/
def chained (connective : Connective) (predicate : Predicate) (spelling : String) : String :=
  if predicate.connective? = some connective then spelling else grouped predicate spelling

/-- The spelling of a field joined with a literal by the name of an operator. -/
def operation (field : FieldExpr) (name : String) (value : Literal) : Except Error String := do
  let wire ← field.wire
  let text ← value.signatureText wire
  return s!"{wire}_{name}_{text}"

/-- The signature before the refused characters are replaced. -/
def spelling : Predicate → Except Error String
  | .and left right => do
      let leftText ← left.spelling
      let rightText ← right.spelling
      return s!"{chained .and left leftText}_AndAlso_{grouped right rightText}"
  | .or left right => do
      let leftText ← left.spelling
      let rightText ← right.spelling
      return s!"{chained .or left leftText}_OrElse_{grouped right rightText}"
  | .not inner => do
      let text ← inner.spelling
      return s!"Not_{grouped inner text}"
  | .compare ⟨comparator, field, value⟩ => operation field comparator.signatureName value
  | .equals field value => operation field "Equal" value
  | .notEquals field value => operation field "NotEqual" value
  | .flag field => field.wire
  | .holds field => field.wire
  | .present field => do
      let wire ← field.wire
      return s!"{wire}_HasValue"
  | .any collection inner => do
      let wire ← collection.wire
      let text ← inner.spelling
      return s!"{wire}_Any_{grouped inner text}"
  | .call target method => .error (callFault target method)

/-- Whether a character may not stand in the name of an aggregation. -/
def isRefused (char : Char) : Bool :=
  char == '[' || char == ']' || char == '>' || Text.isBlank char

/-- Replaces the characters that may not stand in names. -/
def sanitize (text : String) : String :=
  String.ofList (text.toList.map fun char => if isRefused char then '_' else char)

/-- The signature of a predicate. Different predicates may share one, since replaced
characters are lost. -/
def signature (predicate : Predicate) : Except Error String := do
  return sanitize (← predicate.spelling)

end Predicate

end Facet
