import FleetSearch.Aggregation
import FleetSearch.Filter
import FleetSearch.Geo
import FleetSearch.SortKey

/-! # Queries

A query gathers what a request asks for and is written as the body of a search. Nothing that was
added is ever taken out again. -/
namespace FleetSearch

structure Query where
  must : List Clause
  mustNot : List Clause
  sort : List SortClause
  geo : GeoFilters
  offset : Int
  size : Int
  projection : Option (List String)
  aggregations : Option Aggregations
  extras : List (String × Json)
  deriving Repr

/-- The nearest number that fits 64 bits with a sign. -/
def saturate (n : Int) : Int :=
  if n < Number.leastInt64 then Number.leastInt64
  else if Number.greatestInt64 < n then Number.greatestInt64
  else n

theorem saturate_of_fits {n : Int} (low : Number.leastInt64 ≤ n)
    (high : n ≤ Number.greatestInt64) : saturate n = n := by
  simp only [saturate]
  split
  · omega
  · split
    · omega
    · rfl

namespace Query

def defaultPage : Int := 0

def defaultPerPage : Int := 20

/-- Where a page starts. Pages are counted from one; both steps stay within 64 bits. -/
def pageOffset (page perPage : Int) : Int := saturate (saturate (page - 1) * perPage)

def empty : Query where
  must := []
  mustNot := []
  sort := []
  geo := .none
  offset := pageOffset defaultPage defaultPerPage
  size := defaultPerPage
  projection := none
  aggregations := none
  extras := []

def addMust (q : Query) (clause : Clause) : Query := { q with must := q.must ++ [clause] }

def addMustNot (q : Query) (clause : Clause) : Query := { q with mustNot := q.mustNot ++ [clause] }

def addSort (q : Query) (clause : SortClause) : Query := { q with sort := q.sort ++ [clause] }

def addFilter (q : Query) (filter : Filter) : Query :=
  { q with must := q.must ++ filter.must, mustNot := q.mustNot ++ filter.mustNot }

def withPage (q : Query) (page perPage : Int) : Query :=
  { q with offset := pageOffset page perPage, size := perPage }

def withSize (q : Query) (size : Int) : Query := { q with size := size }

def withGeo (q : Query) (geo : GeoFilters) : Query := { q with geo := geo }

def withProjection (q : Query) (fields : List String) : Query :=
  { q with projection := some fields }

def withAggregations (q : Query) (aggregations : Aggregations) : Query :=
  { q with aggregations := some aggregations }

/-- Replaces the value of a key in its place, or adds the key at the end. -/
def putExtra (key : String) (value : Json) : List (String × Json) → List (String × Json)
  | [] => [(key, value)]
  | (other, kept) :: rest =>
    if other = key then (key, value) :: rest else (other, kept) :: putExtra key value rest

def withExtra (q : Query) (key : String) (value : Json) : Query :=
  { q with extras := putExtra key value q.extras }

/-- Orders by an attribute of unknown kind: by its strings, then by its numbers. A blank order is an
ascending one. -/
def sortBy {σ : Type} [Scoping σ] (q : Query) (key : SortKey σ) : Query :=
  let order := if key.order.isEmpty then SortKey.ascending else key.order
  let fields := key.subject.variants
  (q.addSort (.by fields.string order "keyword")).addSort (.by fields.number order "double")

/-- Asks for the fields of some attributes. The id and the time of the last check-in always come. -/
def select {σ : Type} [Scoping σ] (q : Query) (attributes : List (Attribute σ)) : Query :=
  q.withProjection
    (attributes.flatMap (·.variants.toList) ++ [FieldName.id, FieldName.checkIn])

/-! ## The document -/

/-- A member that is left out where it is empty. -/
def clausesMember (name : String) (clauses : List Json) : List (String × Json) :=
  if clauses.isEmpty then [] else [(name, .array clauses)]

/-- The members of the boolean condition. -/
def parts (q : Query) : List (String × Json) :=
  clausesMember "must" (q.must.map Clause.toJson) ++
    clausesMember "must_not" (q.mustNot.map Clause.toJson) ++
    Json.memberOf "filter" id q.geo.clause?

def condition (q : Query) : Json := Json.tagged "bool" (.object q.parts)

/-- The members that a query has of itself. -/
def slots (q : Query) : List (String × Json) :=
  [("query", q.condition)] ++
    clausesMember "sort" (q.sort.map SortClause.toJson) ++
    [("from", .number (.int q.offset)), ("size", .number (.int q.size))] ++
    (match q.projection with
      | some fields => [("fields", Json.strings fields), ("_source", .bool false)]
      | none => []) ++
    Json.memberOf "aggs" Aggregation.listJson q.aggregations

/-- Whether a query writes a key of itself. -/
def emits (q : Query) : String → Bool
  | "query" | "from" | "size" => true
  | "sort" => !q.sort.isEmpty
  | "fields" | "_source" => q.projection.isSome
  | "aggs" => q.aggregations.isSome
  | _ => false

/-- An extra key takes the place of the member of its name; the others follow at the end. -/
def members (q : Query) : List (String × Json) :=
  q.slots.map (fun (name, value) => (name, (q.extras.lookup name).getD value)) ++
    q.extras.filter fun (key, _) => !q.emits key

def toJson (q : Query) : Json := .object q.members

end Query

end FleetSearch
