import Facet.Json.Basic

/-!
Queries of the search engine.

Owns:
- bounds of ranges, and the type of queries;
- the JSON form of queries;
- equality of queries, up to the numeric equality of doubles;
- the ranges of a query, in the order in which they are written.

Does not own: which queries come from predicates, and what queries match.
-/

namespace Facet

/-! ### Bounds -/

/-- How the bounds of a range compare. -/
inductive RangeKind where
  | numeric
  | date
  | term
deriving DecidableEq, Repr

def RangeKind.name : RangeKind → String
  | .numeric => "numeric"
  | .date => "date"
  | .term => "term"

/-- The bounds of a range. -/
structure Bounds where
  above : Option Json
  atLeast : Option Json
  below : Option Json
  atMost : Option Json
deriving Repr

namespace Bounds

def none : Bounds := ⟨.none, .none, .none, .none⟩

def hasLower (bounds : Bounds) : Bool :=
  bounds.above.isSome || bounds.atLeast.isSome

def hasUpper (bounds : Bounds) : Bool :=
  bounds.below.isSome || bounds.atMost.isSome

/-- The bounds of both; where both set the same bound, the later one counts. -/
def merge (first later : Bounds) : Bounds where
  above := later.above <|> first.above
  atLeast := later.atLeast <|> first.atLeast
  below := later.below <|> first.below
  atMost := later.atMost <|> first.atMost

/-- A bound as a member of the JSON form. -/
def member (name : String) : Option Json → Members
  | .none => []
  | some value => [(name, value)]

def toJson (bounds : Bounds) : Json :=
  .object
    (member "gt" bounds.above ++ member "gte" bounds.atLeast ++ member "lt" bounds.below ++
      member "lte" bounds.atMost)

/-- Equality of one bound. -/
def sameBound : Option Json → Option Json → Bool
  | .none, .none => true
  | some left, some right => left.same right
  | _, _ => false

def same (left right : Bounds) : Bool :=
  sameBound left.above right.above && sameBound left.atLeast right.atLeast &&
    sameBound left.below right.below && sameBound left.atMost right.atMost

end Bounds

/-! ### Queries -/

/-- A query. A boolean query combines three rows of clauses. -/
inductive Query where
  | matchAll
  | term (field : String) (value : Json)
  | range (field : String) (kind : RangeKind) (bounds : Bounds)
  | present (field : String)
  | bool (must should mustNot : List Query) (minimumShouldMatch : Option Nat)
  | nested (path : String) (inner : Query)
deriving Repr

namespace Query

/-- All clauses must match. -/
def allOf (clauses : List Query) : Query :=
  .bool clauses [] [] none

/-- At least one clause must match. -/
def anyOf (clauses : List Query) : Query :=
  .bool [] clauses [] (some 1)

/-- The clause must not match. -/
def negation (clause : Query) : Query :=
  .bool [] [] [clause] none

/-- A query that requires a boolean field to be true. -/
def flag (field : String) : Query :=
  .term field (.bool true)

def isMatchAll : Query → Bool
  | .matchAll => true
  | _ => false

/-- The engine's word for the outermost node. -/
def kind : Query → String
  | .matchAll => "match_all"
  | .term _ _ => "term"
  | .range _ _ _ => "range"
  | .present _ => "exists"
  | .bool _ _ _ _ => "bool"
  | .nested _ _ => "nested"

/-! ### JSON form -/

/-- A row of clauses as a member of the JSON form; an empty row has none. -/
def clauseMember (name : String) (clauses : List Json) : Members :=
  if clauses.isEmpty then [] else [(name, .array clauses)]

/-- The required number of matches as a member of the JSON form. -/
def minimumMember : Option Nat → Members
  | none => []
  | some count => [("minimum_should_match", .ofNat count)]

mutual

/-- The JSON form of a query. -/
def toJson : Query → Json
  | .matchAll => .object [("match_all", .object [])]
  | .term field value => .object [("term", .object [(field, .object [("value", value)])])]
  | .range field _ bounds => .object [("range", .object [(field, bounds.toJson)])]
  | .present field => .object [("exists", .object [("field", .string field)])]
  | .bool must should mustNot minimumShouldMatch =>
      .object
        [("bool",
          .object
            (clauseMember "must" (toJsonAll must) ++ clauseMember "should" (toJsonAll should) ++
              clauseMember "must_not" (toJsonAll mustNot) ++ minimumMember minimumShouldMatch))]
  | .nested path inner =>
      .object [("nested", .object [("path", .string path), ("query", toJson inner)])]

def toJsonAll : List Query → List Json
  | [] => []
  | clause :: clauses => toJson clause :: toJsonAll clauses

end

/-! ### Equality -/

mutual

/-- Equality of queries. -/
def same : Query → Query → Bool
  | .matchAll, .matchAll => true
  | .term leftField left, .term rightField right => leftField == rightField && left.same right
  | .range leftField leftKind left, .range rightField rightKind right =>
      leftField == rightField && leftKind == rightKind && left.same right
  | .present left, .present right => left == right
  | .bool must should mustNot minimum, .bool must₂ should₂ mustNot₂ minimum₂ =>
      sameAll must must₂ && sameAll should should₂ && sameAll mustNot mustNot₂ &&
        minimum == minimum₂
  | .nested leftPath left, .nested rightPath right => leftPath == rightPath && same left right
  | _, _ => false

def sameAll : List Query → List Query → Bool
  | [], [] => true
  | left :: lefts, right :: rights => same left right && sameAll lefts rights
  | _, _ => false

end

/-! ### Ranges -/

/-- A range node of a query. -/
structure Range where
  field : String
  kind : RangeKind
  bounds : Bounds
deriving Repr

mutual

/-- The range nodes of a query, depth first; in a boolean query the required clauses come
first, then the optional, then the excluded ones. -/
def ranges : Query → List Range
  | .range field kind bounds => [⟨field, kind, bounds⟩]
  | .bool must should mustNot _ => rangesAll must ++ rangesAll should ++ rangesAll mustNot
  | .nested _ inner => ranges inner
  | _ => []

def rangesAll : List Query → List Range
  | [] => []
  | clause :: clauses => ranges clause ++ rangesAll clauses

end

end Query

end Facet
