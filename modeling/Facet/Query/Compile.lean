import Facet.Options
import Facet.Predicate.Basic
import Facet.Field.Resolution
import Facet.Query.Basic
import Facet.Traced

/-!
Queries from predicates.

Owns:
- comparisons as ranges, and the merging of two opposite bounds of one field into one range;
- `Predicate.lower`, the query of a predicate below a scope;
- `Predicate.compile`, which also reports the outcome.

Conjunctions are written as one row of clauses, however they are bracketed, and a clause that
matches everything is left out. A comparison with null matches everything.
-/

namespace Facet

/-! ### Comparisons -/

namespace Comparison

/-- The kind of range that compares with a literal, if one does. -/
def rangeKind? : Literal → Option RangeKind
  | .integer _ | .float _ => some .numeric
  | .instant _ => some .date
  | .string _ => some .term
  | _ => none

/-- The bound that a comparator sets. -/
def bound (comparator : Comparator) (value : Json) : Bounds :=
  match comparator with
  | .greater => { Bounds.none with above := some value }
  | .greaterOrEqual => { Bounds.none with atLeast := some value }
  | .less => { Bounds.none with below := some value }
  | .lessOrEqual => { Bounds.none with atMost := some value }

/-- The range of a comparison with a literal other than null. -/
def range (scope : Option Path) (comparison : Comparison) : Except Error Query.Range := do
  let field ← comparison.field.wireWithin scope
  let context := s!"range on '{field}'"
  match rangeKind? comparison.value with
  | none => .error (.unsupportedLiteral comparison.value.kind context)
  | some kind => do
      let value ← comparison.value.toJson context
      return ⟨field, kind, bound comparison.comparator value⟩

/-- The query of a comparison. -/
def lower (scope : Option Path) (comparison : Comparison) : Except Error Query :=
  if comparison.value.isNull then do
    let _ ← comparison.field.wireWithin scope
    return .matchAll
  else do
    let range ← comparison.range scope
    return .range range.field range.kind range.bounds

/-- Whether two comparisons bound from opposite sides with literals of one range kind. -/
def areOpposite (left right : Comparison) : Bool :=
  !left.value.isNull && !right.value.isNull &&
    left.comparator.isLower != right.comparator.isLower &&
    (rangeKind? left.value).isSome && rangeKind? left.value == rangeKind? right.value

/-- Whether two comparisons merge: they are opposite and on one field. -/
def merges (scope : Option Path) (left right : Comparison) : Except Error Bool :=
  if areOpposite left right then do
    let leftField ← left.field.wireWithin scope
    let rightField ← right.field.wireWithin scope
    return leftField == rightField
  else
    .ok false

/-- The one range of two comparisons that merge. -/
def merged (scope : Option Path) (left right : Comparison) : Traced Query := do
  let lower ← left.range scope
  let upper ← right.range scope
  Traced.emit .rangeMerged [("field", lower.field)]
  return .range lower.field lower.kind (lower.bounds.merge upper.bounds)

end Comparison

/-! ### Predicates -/

namespace Predicate

/-- The two comparisons of a conjunction that merge into one range, if they do. -/
def mergedPair (options : CompilerOptions) (scope : Option Path) :
    Predicate → Predicate → Except Error (Option (Comparison × Comparison))
  | .compare left, .compare right =>
      if options.mergeRanges then do
        return if ← Comparison.merges scope left right then some (left, right) else none
      else
        .ok none
  | _, _ => .ok none

/-- Looks for merging pairs in a chain of conjunctions. All of the chain is examined before
any operand is lowered, and the first field without a path is reported. -/
def examine (options : CompilerOptions) (scope : Option Path) : Predicate → Except Error Unit
  | .and left right => do
      match ← mergedPair options scope left right with
      | some _ => return ()
      | none =>
          examine options scope left
          examine options scope right
  | _ => .ok ()

/-- The query of an equality. -/
def lowerEquals (scope : Option Path) (field : FieldExpr) (value : Literal) :
    Except Error Query := do
  let wire ← field.wireWithin scope
  if value.isNull then
    return .negation (.present wire)
  else
    let json ← value.toJson s!"term on '{wire}'"
    return .term wire json

/-- What a predicate contributes to an enclosing conjunction: one query, or the clauses of a
chain. -/
inductive Lowered where
  | one (query : Query)
  | chain (clauses : List Query)
deriving Repr

namespace Lowered

/-- The clauses within a conjunction; those that match everything are left out. -/
def clauses : Lowered → List Query
  | .one query => if query.isMatchAll then [] else [query]
  | .chain clauses => clauses

/-- The query on its own. A conjunction without clauses matches everything. -/
def query : Lowered → Query
  | .one query => query
  | .chain [] => .matchAll
  | .chain clauses => .allOf clauses

end Lowered

/-- Lowers a predicate, below the path of the collection that it speaks of. -/
def lowered (options : CompilerOptions) : Option Path → Predicate → Traced Lowered
  | scope, .and left right => do
      match ← mergedPair options scope left right with
      | some (lower, upper) => return .one (← Comparison.merged scope lower upper)
      | none =>
          examine options scope left
          examine options scope right
          let leftLowered ← lowered options scope left
          let rightLowered ← lowered options scope right
          return .chain (leftLowered.clauses ++ rightLowered.clauses)
  | scope, .or left right => do
      let leftLowered ← lowered options scope left
      let rightLowered ← lowered options scope right
      return .one (.anyOf [leftLowered.query, rightLowered.query])
  | scope, .not inner => do
      return .one (.negation (← lowered options scope inner).query)
  | scope, .compare comparison => do
      return .one (← comparison.lower scope)
  | scope, .equals field value => do
      return .one (← lowerEquals scope field value)
  | scope, .notEquals field value =>
      if value.isNull then do
        return .one (.present (← field.wireWithin scope))
      else do
        return .one (.negation (← lowerEquals scope field value))
  | scope, .flag field => do
      return .one (.flag (← field.wireWithin scope))
  | scope, .present field => do
      return .one (.present (← field.wireWithin scope))
  | scope, .holds field =>
      if field.isNamed then do
        return .one (.flag (← field.wireWithin scope))
      else
        Traced.ofExcept (.error (.unsupportedPredicate (.notNamed field.display)))
  | scope, .any collection inner => do
      let path ← collection.resolveWithin scope
      let innerLowered ← lowered options (some path) inner
      if options.isNested path.wire then
        return .one (.nested path.wire innerLowered.query)
      else
        return .one (.allOf [innerLowered.query])
  | _, .call target method => Traced.ofExcept (.error (callFault target method))

/-- The query of a predicate below a scope. -/
def lower (options : CompilerOptions) (scope : Option Path) (predicate : Predicate) :
    Traced Query := do
  return (← lowered options scope predicate).query

/-- The query of a predicate. Any part without a query fails the whole. -/
def compile (options : CompilerOptions) (predicate : Predicate) : Traced Query :=
  (lower options none predicate).conclude
    (fun query => ⟨.filterCompiled, [("root", query.kind)]⟩)
    (fun error => ⟨.filterRejected, [("code", error.code), ("shape", predicate.shape)]⟩)

end Predicate

end Facet
