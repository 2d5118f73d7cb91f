import Facet.Json.Fields

/-!
Options of compiling predicates and of building aggregations.

Owns:
- rows of paths in increasing order, without repetition;
- the options and their defaults;
- their JSON form, and the values they are read from.

Any option may be left out. An options value may also be given as the row of its options in
order; options left out at the end of the row keep their defaults.
-/

namespace Facet

/-! ### Rows of paths -/

/-- Inserts into a row in increasing order, once. -/
def insertSorted (path : String) : List String → List String
  | [] => [path]
  | head :: tail =>
      if path < head then path :: head :: tail
      else if path = head then head :: tail
      else head :: insertSorted path tail

@[simp] theorem mem_insertSorted {path other : String} {paths : List String} :
    other ∈ insertSorted path paths ↔ other = path ∨ other ∈ paths := by
  induction paths with
  | nil => simp [insertSorted]
  | cons head tail inductionHypothesis =>
      simp only [insertSorted]
      split
      · simp
      · split
        · next same => simp [same]
        · rw [List.mem_cons, List.mem_cons, inductionHypothesis]
          exact or_left_comm

/-- A row in increasing order stays so. -/
theorem pairwise_insertSorted (path : String) {paths : List String}
    (increasing : paths.Pairwise (· < ·)) : (insertSorted path paths).Pairwise (· < ·) := by
  induction increasing with
  | nil => exact List.pairwise_singleton _ path
  | @cons head tail least rest inductionHypothesis =>
      have whole : (head :: tail).Pairwise (· < ·) := .cons least rest
      simp only [insertSorted]
      split
      · next below =>
          refine .cons (List.forall_mem_cons.mpr ⟨below, ?_⟩) whole
          intro other member
          exact String.lt_trans below (least other member)
      · next notBelow =>
          split
          · exact whole
          · next apart =>
              refine .cons ?_ inductionHypothesis
              intro other member
              rcases mem_insertSorted.mp member with rfl | member
              · exact Std.lt_of_le_of_ne (String.not_lt.mp notBelow) (Ne.symm apart)
              · exact least other member

/-! ### Options -/

/-- Options of compiling predicates. The nested paths are in increasing order and without
repetition. -/
structure CompilerOptions where
  mergeRanges : Bool
  nestedPaths : List String
  increasing : nestedPaths.Pairwise (· < ·)
deriving DecidableEq, Repr

/-- Options of building aggregations. -/
structure BuilderOptions where
  compiler : CompilerOptions
  termsSize : Nat
  defaultPercents : List Double
deriving DecidableEq, Repr

namespace CompilerOptions

def standard : CompilerOptions := ⟨true, [], .nil⟩

/-- The standard options, except that ranges are not merged. -/
def withoutMerging : CompilerOptions := ⟨false, [], .nil⟩

/-- Registers the path of a collection of nested documents. -/
def addNested (options : CompilerOptions) (path : String) : CompilerOptions where
  mergeRanges := options.mergeRanges
  nestedPaths := insertSorted path options.nestedPaths
  increasing := pairwise_insertSorted path options.increasing

def isNested (options : CompilerOptions) (path : String) : Bool :=
  options.nestedPaths.contains path

def toJson (options : CompilerOptions) : Json :=
  .object
    [("merge_adjacent_ranges", .bool options.mergeRanges),
      ("nested_paths", .ofStrings options.nestedPaths)]

def ofJson? (value : Json) : Option CompilerOptions := do
  let fields ← Json.Fields.ofJson? value
  let (mergeRanges, fields) ←
    fields.take "merge_adjacent_ranges" Json.asBool? (some true) (some true)
  let (paths, fields) ←
    fields.take "nested_paths" (Json.asListOf? Json.asString?) (some []) (some [])
  fields.finish (paths.foldl addNested ⟨mergeRanges, [], .nil⟩)

end CompilerOptions

namespace BuilderOptions

/-- The standard options around given compiler options. -/
def around (compiler : CompilerOptions) : BuilderOptions where
  compiler
  termsSize := 10000
  defaultPercents := [1, 5, 25, 50, 75, 95, 99].map Double.ofInt

def standard : BuilderOptions :=
  around .standard

def toJson (options : BuilderOptions) : Json :=
  .object
    [("compiler", options.compiler.toJson), ("terms_size", .ofNat options.termsSize),
      ("default_percents", .array (options.defaultPercents.map Json.ofDouble))]

def ofJson? (value : Json) : Option BuilderOptions := do
  let fields ← Json.Fields.ofJson? value
  let (compiler, fields) ←
    fields.take "compiler" CompilerOptions.ofJson? (some .standard) (some .standard)
  let (termsSize, fields) ←
    fields.take "terms_size" Json.asNat32? (some standard.termsSize) (some standard.termsSize)
  let (percents, fields) ←
    fields.take "default_percents" (Json.asListOf? Json.asDouble?)
      (some standard.defaultPercents) (some standard.defaultPercents)
  fields.finish ⟨compiler, termsSize, percents⟩

end BuilderOptions

end Facet
