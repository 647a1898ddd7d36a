import FleetSearch.Term

/-! # Aggregations

The buckets that the search engine is asked for. They are known by their names: of terms of one name
that stand side by side the last is kept. -/
namespace FleetSearch

/-- Buckets by the values of a field, at most `size` of them, each with aggregations inside. -/
inductive Aggregation where
  | mk (field : String) (size : Int) (inner : List (String × Aggregation))
  deriving Repr

abbrev Aggregations := List (String × Aggregation)

namespace Aggregation

/-- The number of buckets of a term that leaves its limit out. -/
def defaultSize : Int := 10

def sizeOfLimit (limit : Int) : Int := if limit ≤ 0 then defaultSize else limit

mutual

def toJson : Aggregation → Json
  | mk field size inner =>
    let terms : Json := .object [("field", .string field), ("size", .number (.int size))]
    let within := if inner.isEmpty then [] else [("aggs", Json.object (membersJson inner))]
    .object (("terms", terms) :: within)

def membersJson : List (String × Aggregation) → List (String × Json)
  | [] => []
  | (name, aggregation) :: rest => (name, toJson aggregation) :: membersJson rest

end

def listJson (aggregations : Aggregations) : Json := .object (membersJson aggregations)

end Aggregation

namespace Term

variable {σ : Type}

mutual

/-- The buckets of a term, over the field that `fieldOf` finds for its attribute. -/
def aggregation (fieldOf : Attribute σ → String) : Term σ → Aggregation
  | mk _ subject limit children =>
    .mk (fieldOf subject) (Aggregation.sizeOfLimit limit) (aggregationsInto fieldOf [] children)

def aggregationsInto (fieldOf : Attribute σ → String) (found : List (String × Aggregation)) :
    List (Term σ) → List (String × Aggregation)
  | [] => found
  | term :: rest =>
    aggregationsInto fieldOf (Table.insert found term.name (aggregation fieldOf term)) rest

end

def aggregations (fieldOf : Attribute σ → String) (terms : List (Term σ)) : Aggregations :=
  aggregationsInto fieldOf [] terms

theorem aggregations_eq (fieldOf : Attribute σ → String) (terms : List (Term σ)) :
    aggregations fieldOf terms =
      Table.ofList (terms.map fun term => (term.name, term.aggregation fieldOf)) := by
  have step (found : List (String × Aggregation)) : aggregationsInto fieldOf found terms =
      (terms.map fun term => (term.name, term.aggregation fieldOf)).foldl
        (fun table entry => Table.insert table entry.1 entry.2) found := by
    induction terms generalizing found with
    | nil => rfl
    | cons term rest ih => rw [aggregationsInto, ih, List.map_cons, List.foldl_cons]
  exact step []

/-- Buckets of device attributes are sorted by their strings. -/
def deviceAggregations (terms : List (Term Scope)) : Aggregations :=
  aggregations (fun subject => subject.field .string) terms

/-- Attributes of deployments are fields as they stand, dots included. -/
def deploymentAggregations (terms : List (Term Flat)) : Aggregations :=
  aggregations Attribute.name terms

end Term

end FleetSearch
