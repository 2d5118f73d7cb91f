import Facet.Result.Key

/-!
Result trees: the engine's results by name, in its order.

Owns:
- look-up of results, and the diagnosis of a missing one;
- the names that the engine uses for itself beside the results in a bucket;
- sub-trees of filters, and the buckets of bucketing results with their sub-trees.

A sub-tree keeps only the results: members that are objects and not the engine's own.
-/

namespace Facet

/-- The names of the members that the engine places beside the results of a bucket. -/
def reservedNames : List String :=
  ["key", "key_as_string", "doc_count", "doc_count_error_upper_bound", "sum_other_doc_count",
    "buckets", "meta"]

def isReserved (name : String) : Bool :=
  reservedNames.contains name

/-! ### Trees and buckets -/

/-- Results by name. -/
structure Tree where
  members : Members
deriving Repr

/-- One bucket of a bucketing result. -/
structure Bucket where
  key : Key
  docCount : Nat
  tree : Tree
deriving Repr

/-- The error for a value of the wrong kind, which is all that it says of the value. -/
def Error.shape (name : String) (found : Json) (target : String) : Error :=
  .coercion name found.kind target

/-- The members of a result. -/
def Json.results (name : String) (value : Json) : Except Error Members :=
  match value.asObject? with
  | some members => .ok members
  | none => .error (.shape name value "object")

namespace Members

/-- A result among the members of a bucket. Without it, the error lists the results that
there are. -/
def lookup (members : Members) (name : String) : Traced Json :=
  match Members.find? members name with
  | some value => pure value
  | none =>
      let present := (Members.names members).filter (!isReserved ·)
      Traced.failWith .aggregationMissing [("name", name)]
        (if present.isEmpty then .noAggregations name else .noSuchAggregation name present)

/-- The results among the members of a bucket or filter. -/
def subResults (members : Members) : Members :=
  members.filter fun member => !isReserved member.1 && member.2.isObject

end Members

/-! ### Reading buckets -/

namespace Bucket

/-- Reads one bucket of an aggregation. -/
def ofJson (name : String) (value : Json) : Except Error Bucket := do
  let members ← value.results name
  match Members.find? members "key" with
  | none => .error (.coercion name "a bucket without a key" "bucket")
  | some raw =>
      return {
        key := ⟨raw, (Members.find? members "key_as_string").bind Json.asString?⟩
        docCount := ((Members.find? members "doc_count").bind Json.asNat?).getD 0
        tree := ⟨Members.subResults members⟩ }

/-- The key, converted on its own. -/
def keyAs {α : Type} (bucket : Bucket) (reader : KeyReader α) : Traced α :=
  bucket.key.read reader "key"

end Bucket

/-- The buckets of a bucketing result. -/
def Json.buckets (name : String) (body : Json) : Except Error (List Bucket) :=
  match (body.get? "buckets").bind Json.asArray? with
  | some items => items.mapM (Bucket.ofJson name)
  | none => .error (.shape name body "buckets")

/-! ### Reading trees -/

namespace Tree

def empty : Tree := ⟨[]⟩

/-- The tree of a response's results; null stands for none. -/
def ofJson : Json → Except Error Tree
  | .null => .ok empty
  | .object members => .ok ⟨members⟩
  | other => .error (.engine (.aggregationsNotObject other.kind))

def isEmpty (tree : Tree) : Bool :=
  tree.members.isEmpty

def names (tree : Tree) : List String :=
  Members.names tree.members

def toJson (tree : Tree) : Json :=
  .object tree.members

/-- A raw result. -/
def find? (tree : Tree) (name : String) : Option Json :=
  Members.find? tree.members name

/-- A raw result that should be there. -/
def lookup (tree : Tree) (name : String) : Traced Json :=
  Members.lookup tree.members name

/-- The sub-tree of a filter. -/
def subTree (tree : Tree) (name : String) : Traced Tree := do
  let body ← tree.lookup name
  let members ← body.results name
  return ⟨Members.subResults members⟩

/-- The buckets of a bucketing result. -/
def buckets (tree : Tree) (name : String) : Traced (List Bucket) := do
  let body ← tree.lookup name
  body.buckets name

end Tree

end Facet
