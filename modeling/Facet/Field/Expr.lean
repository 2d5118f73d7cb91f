import Facet.Literal

/-!
Expressions that reach a field of a document.

Owns:
- `StringExpr`, the strings that name fields, which may depend on the run;
- `FieldExpr`, accesses from the document down, including some that are no field at all;
- their displayed forms.

Does not own: the path that an expression resolves to.
-/

namespace Facet

/-- A string expression. A value known only at run time is no constant. -/
inductive StringExpr where
  | literal (text : String)
  | concat (parts : List StringExpr)
  | runtime (name : String)
deriving Repr

namespace StringExpr

mutual

def display : StringExpr → String
  | .literal text => s!"\"{text}\""
  | .concat parts => " + ".intercalate (displayAll parts)
  | .runtime name => name

def displayAll : List StringExpr → List String
  | [] => []
  | part :: parts => display part :: displayAll parts

end

mutual

/-- The value of a constant expression; the first part that is not constant is reported. -/
def constant : StringExpr → Except Error String
  | .literal text => .ok text
  | .concat parts => constantParts parts
  | .runtime name => .error (.unresolvableField (.notConstant name))

def constantParts : List StringExpr → Except Error String
  | [] => .ok ""
  | part :: parts => do
      let first ← constant part
      let rest ← constantParts parts
      return first ++ rest

end

end StringExpr

/-- An access from the document down. `named` gives the engine's own name for a field, and
`member` the name of a property. -/
inductive FieldExpr where
  | root
  | member (target : FieldExpr) (name : String)
  | named (target : FieldExpr) (name : StringExpr)
  | call (target : FieldExpr) (method : String)
  | constant (value : Literal)
deriving Repr

namespace FieldExpr

/-- A property of the document. -/
def property (name : String) : FieldExpr :=
  .member .root name

/-- The expression that names a path of the engine directly. -/
def ofWire (wire : String) : FieldExpr :=
  .named .root (.literal wire)

def isNamed : FieldExpr → Bool
  | .named _ _ => true
  | _ => false

def isRoot : FieldExpr → Bool
  | .root => true
  | _ => false

def display : FieldExpr → String
  | .root => "d"
  | .member target name => s!"{target.display}.{name}"
  | .named target name => s!"{target.display}.Field({name.display})"
  | .call target method => s!"{target.display}.{method}()"
  | .constant value => value.display

end FieldExpr

end Facet
