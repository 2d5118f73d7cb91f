import Facet.Aggregation.Node
import Facet.Result.Reading
import Facet.Traced

/-!
Exchanges with the search engine: what is sent, and what comes back.

Owns:
- the bodies of search and delete-by-query requests;
- search responses;
- an exchange as a function of the engine's answer, with the events that it reports.

Does not own: talking to an engine.
-/

namespace Facet

/-! ### Requests -/

/-- A search request. Sections that are not set are left out of the body. -/
structure SearchRequest where
  query : Option Query
  aggregations : Aggregations
  size : Option Nat
deriving Repr

namespace SearchRequest

def queryMember : Option Query → Members
  | none => []
  | some query => [("query", query.toJson)]

def aggregationsMember (aggregations : Aggregations) : Members :=
  if aggregations.isEmpty then [] else [("aggs", aggregations.toJson)]

def sizeMember : Option Nat → Members
  | none => []
  | some size => [("size", .ofNat size)]

/-- The body that is sent. -/
def toJson (request : SearchRequest) : Json :=
  .object
    (queryMember request.query ++ aggregationsMember request.aggregations ++
      sizeMember request.size)

end SearchRequest

/-- A request to delete what a query matches. -/
structure DeleteRequest where
  query : Query
deriving Repr

/-- The body that is sent. -/
def DeleteRequest.toJson (request : DeleteRequest) : Json :=
  .object [("query", request.query.toJson)]

/-! ### Responses -/

/-- A search response: always an object. -/
structure SearchResponse where
  members : Members
deriving Repr

namespace SearchResponse

def ofJson : Json → Except Error SearchResponse
  | .object members => .ok ⟨members⟩
  | _ => .error (.engine .responseNotObject)

def body (response : SearchResponse) : Json :=
  .object response.members

/-- The number of matching documents, if it is told. -/
def total? (response : SearchResponse) : Option Nat :=
  ((response.body.get? "hits").bind (·.get? "total")).bind fun total =>
    ((total.get? "value").bind Json.asNat?).or total.asNat?

/-- The sources of the hits; a response without hits has none. -/
def hits {α : Type} (response : SearchResponse) (decode : Json → Option α) :
    Except Error (List α) :=
  Json.sources decode (response.body.hits?.getD [])

/-- The results of the aggregations. -/
def aggregations (response : SearchResponse) : Except Error Tree :=
  Tree.ofJson ((response.body.get? "aggregations").getD .null)

end SearchResponse

/-! ### Exchanges -/

/-- The answer of the engine, which reports its own failures as such. -/
abbrev Answer := Except Error Json

namespace Answer

/-- Takes the answer to a request on an index, and reports a failure of the engine. -/
def receive (answer : Answer) (index : String) : Traced Json :=
  (Traced.ofExcept answer).onFailure fun error =>
    ⟨.engineFailed, [("index", index), ("code", error.code)]⟩

end Answer

/-- A search on an index, given the engine's answer. -/
def SearchRequest.exchange (request : SearchRequest) (index : String) (answer : Answer) :
    Traced SearchResponse := do
  Traced.emit .searchDispatched
    [("index", index), ("aggregations", toString request.aggregations.size)]
  let body ← answer.receive index
  SearchResponse.ofJson body

/-- A deletion on an index, given the engine's answer: the number of deleted documents. -/
def DeleteRequest.exchange (request : DeleteRequest) (index : String) (answer : Answer) :
    Traced Nat := do
  Traced.emit .deleteDispatched [("index", index), ("query", request.query.kind)]
  let body ← answer.receive index
  match (body.get? "deleted").bind Json.asNat? with
  | some count => return count
  | none => Traced.ofExcept (.error (.engine .noDeletedCount))

end Facet
