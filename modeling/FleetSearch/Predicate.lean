import FleetSearch.Attribute
import FleetSearch.Operand
import FleetSearch.Operator

/-! # Predicates

One condition of a request: an attribute is compared with an operand. The operator is kept as the
client spelt it. -/
namespace FleetSearch

structure Predicate (σ : Type) where
  subject : Attribute σ
  operator : String
  operand : Operand
  deriving Repr

namespace Predicate

variable {σ : Type} [Scoping σ]

/-- A predicate whose operator is known. -/
def of (subject : Attribute σ) (operator : Operator) (operand : Operand) : Predicate σ :=
  ⟨subject, operator.name, operand⟩

def fields (σ : Type) [Scoping σ] : List String := Attribute.fields σ ++ ["type", "value"]

def ofPayload? (payload : Payload) : Option (Predicate σ) := do
  let r ← payload.record? (fields σ)
  return {
    subject := ← Attribute.read? r
    operator := ← r.string "type"
    operand := ← r.field "value" default Operand.ofPayload? }

def toJson (p : Predicate σ) : Json :=
  .object (p.subject.members ++ [("type", .string p.operator), ("value", p.operand.toJson)])

def violations (p : Predicate σ) : Violations :=
  let checked := Violations.check (Attribute.check [] p.subject) "type"
    [Rule.required p.operator, Rule.oneOf p.operator Operator.names]
  if p.operand.isNull then Violations.add checked "value" Rule.absent else checked

end Predicate

end FleetSearch
