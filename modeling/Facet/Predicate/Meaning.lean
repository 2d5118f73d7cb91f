import Facet.Query.Compile
import Facet.Query.Matching

/-!
Which documents satisfy a predicate.

Owns:
- `Predicate.isMet`, the reading of predicates over documents, said without queries.

A comparison holds if some value of the field satisfies it, and a comparison with null holds
always. A condition on a collection of nested documents speaks of one element; on any other
collection it speaks of the fields below the collection. Parts that have no meaning, such as
fields without a path, hold of nothing.
-/

namespace Facet

namespace Comparison

/-- Whether some value of the field satisfies the comparison. -/
def isMet (order : Order) (scope : Option Path) (document : Document)
    (comparison : Comparison) : Bool :=
  if comparison.value.isNull then
    true
  else
    match comparison.field.wireWithin scope, rangeKind? comparison.value,
        comparison.value.toJson "" with
    | .ok wire, some kind, .ok bound =>
        (document.values wire).any fun value => order kind comparison.comparator value bound
    | _, _, _ => false

end Comparison

namespace Predicate

/-- Whether a field equals a literal: some value does, or, for null, there is no value. -/
def isEqual (scope : Option Path) (document : Document) (field : FieldExpr)
    (value : Literal) : Bool :=
  match field.wireWithin scope with
  | .error _ => false
  | .ok wire =>
      if value.isNull then (document.values wire).isEmpty
      else
        match value.toJson "" with
        | .ok json => document.hasValue wire json
        | .error _ => false

/-- Whether a boolean field is true. -/
def isTrue (scope : Option Path) (document : Document) (field : FieldExpr) : Bool :=
  match field.wireWithin scope with
  | .ok wire => document.hasValue wire (.bool true)
  | .error _ => false

/-- Whether a document satisfies a predicate, below the path of the collection that it speaks
of. -/
def isMet (options : CompilerOptions) (order : Order) :
    Option Path → Document → Predicate → Bool
  | scope, document, .and left right =>
      isMet options order scope document left && isMet options order scope document right
  | scope, document, .or left right =>
      isMet options order scope document left || isMet options order scope document right
  | scope, document, .not inner => !isMet options order scope document inner
  | scope, document, .compare comparison => comparison.isMet order scope document
  | scope, document, .equals field value => isEqual scope document field value
  | scope, document, .notEquals field value => !isEqual scope document field value
  | scope, document, .flag field => isTrue scope document field
  | scope, document, .holds field => isTrue scope document field
  | scope, document, .present field =>
      match field.wireWithin scope with
      | .ok wire => !(document.values wire).isEmpty
      | .error _ => false
  | scope, document, .any collection inner =>
      match collection.resolveWithin scope with
      | .error _ => false
      | .ok path =>
          if options.isNested path.wire then
            (document.elements path.wire).any fun element =>
              isMet options order (some path) element inner
          else
            isMet options order (some path) document inner
  | _, _, .call _ _ => false

end Predicate

end Facet
