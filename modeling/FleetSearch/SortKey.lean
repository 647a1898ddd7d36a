import FleetSearch.Attribute

/-! # Sort keys

One attribute by which results are ordered. -/
namespace FleetSearch

structure SortKey (σ : Type) where
  subject : Attribute σ
  order : String
  deriving DecidableEq, Repr

namespace SortKey

variable {σ : Type} [Scoping σ]

def ascending : String := "asc"

def descending : String := "desc"

def orders : List String := [ascending, descending]

def fields (σ : Type) [Scoping σ] : List String := Attribute.fields σ ++ ["order"]

def ofPayload? (payload : Payload) : Option (SortKey σ) := do
  let r ← payload.record? (fields σ)
  return ⟨← Attribute.read? r, ← r.string "order"⟩

def toJson (k : SortKey σ) : Json := .object (k.subject.members ++ [("order", .string k.order)])

def violations (k : SortKey σ) : Violations :=
  Violations.check (Attribute.check [] k.subject) "order"
    [Rule.required k.order, Rule.oneOf k.order orders]

end SortKey

end FleetSearch
