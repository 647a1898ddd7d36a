import FleetSearch.Json.Basic
import FleetSearch.Operator

/-! # Clauses

The conditions and orders that the search engine understands, and their written forms. -/
namespace FleetSearch

/-- A condition on documents. -/
inductive Clause where
  | matching (field : String) (value : Json)
  | range (field : String) (bound : Bound) (value : Json)
  | terms (field : String) (values : Json)
  | term (field : String) (value : String)
  | regexp (field : String) (value : Json)
  | present (field : String)
  | anyOf (clauses : List Clause)
  | given (written : Json)
  deriving Repr

namespace Clause

/-- A condition of one kind on one field. -/
def onField (kind field : String) (value : Json) : Json :=
  Json.tagged kind (Json.tagged field value)

mutual

def toJson : Clause → Json
  | matching field value => onField "match" field value
  | range field bound value => onField "range" field (Json.tagged bound.name value)
  | terms field values => onField "terms" field values
  | term field value => onField "term" field (.string value)
  | regexp field value => onField "regexp" field value
  | present field => onField "exists" "field" (.string field)
  | anyOf clauses =>
    Json.tagged "bool"
      (.object [("minimum_should_match", .number (.int 1)), ("should", .array (listJson clauses))])
  | given written => written

def listJson : List Clause → List Json
  | [] => []
  | clause :: rest => toJson clause :: listJson rest

end

/-- The documents with one of some values in a field. -/
def oneOf (field : String) (values : List String) : Clause := terms field (Json.strings values)

end Clause

/-- One level of the order of results. Documents without the field are ordered as if it were mapped
with the type `unmapped`. -/
inductive SortClause where
  | by (field order unmapped : String)
  | given (written : Json)
  deriving Repr

def SortClause.toJson : SortClause → Json
  | .by field order unmapped =>
    Json.tagged field (.object [("order", .string order), ("unmapped_type", .string unmapped)])
  | .given written => written

end FleetSearch
