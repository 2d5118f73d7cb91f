import Facet.Predicate.Basic
import Facet.Query.Basic

/-!
Which documents a query matches.

Owns:
- documents: values at dotted paths, and element documents at the paths of collections;
- `Query.holds`, the reading of queries over documents.

How a value compares with a bound is a parameter, since it depends on how a field is indexed.
A range speaks of one value, which has to lie within all of its bounds.
-/

namespace Facet

/-- A document: any number of values at each dotted path, and the element documents of each
collection. Element documents have their values at full paths. -/
inductive Document where
  | mk (values : String → List Json) (elements : String → List Document)

namespace Document

def values : Document → String → List Json
  | .mk values _ => values

def elements : Document → String → List Document
  | .mk _ elements => elements

/-- Whether a value at a path equals another value. -/
def hasValue (document : Document) (path : String) (value : Json) : Bool :=
  (document.values path).any (·.same value)

end Document

/-- How stored values compare with the bounds of ranges. -/
abbrev Order := RangeKind → Comparator → Json → Json → Bool

namespace Bounds

/-- Whether a value lies within one bound, if it is set. -/
def admitsBound (order : Order) (kind : RangeKind) (comparator : Comparator) (value : Json) :
    Option Json → Bool
  | .none => true
  | some bound => order kind comparator value bound

/-- Whether a value lies within all bounds. -/
def admits (order : Order) (kind : RangeKind) (bounds : Bounds) (value : Json) : Bool :=
  admitsBound order kind .greater value bounds.above &&
    admitsBound order kind .greaterOrEqual value bounds.atLeast &&
    admitsBound order kind .less value bounds.below &&
    admitsBound order kind .lessOrEqual value bounds.atMost

end Bounds

namespace Query

/-- How many optional clauses have to match. Without a number it is one, if there is nothing
but optional clauses. -/
def requiredMatches (must should : List Query) : Option Nat → Nat
  | some count => count
  | none => if must.isEmpty && !should.isEmpty then 1 else 0

mutual

/-- Whether a query matches a document. -/
def holds (order : Order) (document : Document) : Query → Bool
  | .matchAll => true
  | .term field value => document.hasValue field value
  | .range field kind bounds => (document.values field).any (bounds.admits order kind)
  | .present field => !(document.values field).isEmpty
  | .bool must should mustNot minimumShouldMatch =>
      countMatches order document must == must.length &&
        countMatches order document mustNot == 0 &&
        requiredMatches must should minimumShouldMatch ≤ countMatches order document should
  | .nested path inner => (document.elements path).any fun element => holds order element inner

/-- How many of some clauses match a document. -/
def countMatches (order : Order) (document : Document) : List Query → Nat
  | [] => 0
  | clause :: clauses =>
      (if holds order document clause then 1 else 0) + countMatches order document clauses

end

private theorem countMatches_le (order : Order) (document : Document) (clauses : List Query) :
    countMatches order document clauses ≤ clauses.length := by
  induction clauses with
  | nil => simp [countMatches]
  | cons clause rest inductionHypothesis =>
      simp only [countMatches, List.length_cons]
      split <;> omega

/-- All clauses match exactly if as many match as there are. -/
theorem countMatches_eq_length_iff (order : Order) (document : Document) (clauses : List Query) :
    countMatches order document clauses = clauses.length ↔
      ∀ clause ∈ clauses, holds order document clause = true := by
  induction clauses with
  | nil => simp [countMatches]
  | cons clause rest inductionHypothesis =>
      have bound := countMatches_le order document rest
      simp only [countMatches, List.length_cons, List.forall_mem_cons, ← inductionHypothesis]
      by_cases first : holds order document clause = true
      · simp only [first, if_true, true_and]
        omega
      · simp only [first, Bool.false_eq_true, if_false, false_and, iff_false]
        omega

@[simp] theorem holds_allOf (order : Order) (document : Document) (clauses : List Query) :
    holds order document (allOf clauses) = true ↔
      ∀ clause ∈ clauses, holds order document clause = true := by
  rw [← countMatches_eq_length_iff]
  simp [allOf, holds, countMatches, requiredMatches]

@[simp] theorem holds_negation (order : Order) (document : Document) (clause : Query) :
    holds order document (negation clause) = !holds order document clause := by
  cases inner : holds order document clause <;>
    simp [negation, holds, countMatches, requiredMatches, inner]

@[simp] theorem holds_anyOf (order : Order) (document : Document) (left right : Query) :
    holds order document (anyOf [left, right]) =
      (holds order document left || holds order document right) := by
  cases first : holds order document left <;> cases second : holds order document right <;>
    simp [anyOf, holds, countMatches, requiredMatches, first, second]

end Query

end Facet
