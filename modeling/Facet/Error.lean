/-!
What can go wrong, by cause, and the words for it.

Owns:
- `FieldFault`, `PredicateFault` and `EngineFault`, the causes within one kind of error;
- `Error`, its message, code and severity, and whether a second attempt makes sense.

Everything but a failure of the engine is a fault of the request and is final.
-/

namespace Facet

/-- Why a field expression has no path. -/
inductive FieldFault where
  | emptyPath
  | invalidSegment (segment : String)
  | document (whole : String)
  | methodCall (whole method : String)
  | constant (whole : String)
  | notConstant (name : String)
  | stated (reason : String)
deriving DecidableEq, Repr

namespace FieldFault

def message : FieldFault → String
  | .emptyPath => "empty field path"
  | .invalidSegment segment => s!"invalid field segment '{segment}'"
  | .document whole => s!"'{whole}' is the document, not a field"
  | .methodCall whole method => s!"'{whole}' calls '{method}', which is not a field access"
  | .constant whole => s!"'{whole}' is a constant, not a field access"
  | .notConstant name => s!"named field argument '{name}' is not a constant"
  | .stated reason => reason

end FieldFault

/-- Why a predicate has no query. -/
inductive PredicateFault where
  | notNamed (field : String)
  | noQueryForm (method target : String)
  | stated (reason : String)
deriving DecidableEq, Repr

namespace PredicateFault

def message : PredicateFault → String
  | .notNamed field => s!"'{field}' is not a named-field call"
  | .noQueryForm method target => s!"method '{method}' on '{target}' has no query form"
  | .stated reason => reason

end PredicateFault

/-- What is wrong with the engine or its answer. -/
inductive EngineFault where
  | aggregationsNotObject (kind : String)
  | responseNotObject
  | noDeletedCount
  | stated (reason : String)
deriving DecidableEq, Repr

namespace EngineFault

def message : EngineFault → String
  | .aggregationsNotObject kind => s!"aggregations must be an object, got {kind}"
  | .responseNotObject => "search response must be an object"
  | .noDeletedCount => "delete-by-query response has no 'deleted' count"
  | .stated reason => reason

end EngineFault

/-- Errors of compiling requests and of reading results. -/
inductive Error where
  | unresolvableField (fault : FieldFault)
  | unsupportedPredicate (fault : PredicateFault)
  | unsupportedLiteral (kind context : String)
  | duplicateAggregation (name : String)
  | noAggregations (name : String)
  | noSuchAggregation (name : String) (present : List String)
  | coercion (name found target : String)
  | undecodable
  | engine (fault : EngineFault)
deriving DecidableEq, Repr

/-- The two severities of errors: the request is malformed, or the engine failed. -/
inductive Error.Severity where
  | reject
  | error
deriving DecidableEq, Repr

def Error.Severity.name : Error.Severity → String
  | .reject => "REJECT"
  | .error => "ERROR"

namespace Error

/-- The message of an error. A document that does not decode is described by its decoder. -/
def message? : Error → Option String
  | .unresolvableField fault => some s!"Unresolvable field expression: {fault.message}"
  | .unsupportedPredicate fault => some s!"Unsupported predicate: {fault.message}"
  | .unsupportedLiteral kind context => some s!"Unsupported literal type '{kind}' in {context}"
  | .duplicateAggregation name => some s!"Duplicate aggregation '{name}' at the same level"
  | .noAggregations name => some s!"Result contains no aggregations (looking for '{name}')"
  | .noSuchAggregation name present =>
      let listed := ", ".intercalate present
      some s!"no aggregation named '{name}'; present aggregations: {listed}"
  | .coercion name found target =>
      some s!"Cannot convert {found} to {target} (aggregation '{name}')"
  | .undecodable => none
  | .engine fault => some s!"Engine error: {fault.message}"

/-- The stable code of an error. -/
def code : Error → String
  | .unresolvableField _ => "AGG_UNRESOLVABLE_FIELD"
  | .unsupportedPredicate _ => "AGG_UNSUPPORTED_PREDICATE"
  | .unsupportedLiteral _ _ => "AGG_UNSUPPORTED_LITERAL"
  | .duplicateAggregation _ => "AGG_DUPLICATE_AGGREGATION"
  | .noAggregations _ => "AGG_NO_AGGREGATIONS"
  | .noSuchAggregation _ _ => "AGG_NO_SUCH_AGGREGATION"
  | .coercion _ _ _ => "AGG_VALUE_COERCION"
  | .undecodable => "AGG_DESERIALIZE"
  | .engine _ => "AGG_ENGINE"

/-- Only failures of the engine may succeed on a second attempt. -/
def isRetryable : Error → Bool
  | .engine _ => true
  | _ => false

def severity (error : Error) : Severity :=
  if error.isRetryable then .error else .reject

end Error

end Facet
