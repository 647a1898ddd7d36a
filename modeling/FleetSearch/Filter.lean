import FleetSearch.Clause
import FleetSearch.Predicate

/-! # Filters

What a predicate asks of a document: conditions that have to hold and conditions that must not. -/
namespace FleetSearch

/-- A field and the value to compare it with. -/
structure Comparison where
  field : String
  value : Json
  deriving Repr

structure Filter where
  must : List Clause
  mustNot : List Clause
  deriving Repr

namespace Predicate

variable {σ : Type} [Scoping σ]

/-- Finds the field for the operand's kind, if the operand is of a form that the policies take. An
operand of the wrong kind is refused in the name of its own kind. -/
def resolve (p : Predicate σ) (arrays : ArrayPolicy) (kinds : KindPolicy) :
    Except FilterError Comparison := do
  let (kind, isArray) ← p.operand.kind
  match arrays, isArray with
  | .notAllowed, true => throw .arrayNotSupported
  | .required, false => throw .arrayRequired
  | _, _ =>
    if kinds.accepts kind then
      return ⟨(FieldName.special? p.subject.name).getD (p.subject.field kind), p.operand.toJson⟩
    else throw (.kindRequired kind)

/-- Presence does not depend on the kind of value, so it is asked of the fields of all kinds. -/
def presence (subject : Attribute σ) (wanted : Bool) : Filter :=
  let clauses := subject.variants.toList.map Clause.present
  if wanted then ⟨[.anyOf clauses], []⟩ else ⟨[], clauses⟩

/-- The filter of a known operator. -/
def filterBy (p : Predicate σ) (operator : Operator) : Except FilterError Filter := do
  let c ← p.resolve operator.arrays operator.kinds
  match operator with
  | .equal => return ⟨[.matching c.field c.value], []⟩
  | .notEqual => return ⟨[], [.matching c.field c.value]⟩
  | .range bound => return ⟨[.range c.field bound c.value], []⟩
  | .oneOf => return ⟨[.terms c.field c.value], []⟩
  | .noneOf => return ⟨[], [.terms c.field c.value]⟩
  | .pattern => return ⟨[.regexp c.field c.value], []⟩
  | .present =>
    match p.operand.asBool? with
    | some wanted => return presence p.subject wanted
    | none => throw (.kindRequired .boolean)

def filter (p : Predicate σ) : Except FilterError Filter :=
  match Operator.ofName? p.operator with
  | some operator => p.filterBy operator
  | none => .error (.unsupportedOperator p.operator)

end Predicate

end FleetSearch
