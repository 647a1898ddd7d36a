import FleetSearch.Proofs.Addressing
import FleetSearch.Proofs.Operands

/-! # Verdicts

What becomes of a predicate is decided by its operator as it is spelt and by the value that it
compares with: first the operator is looked up, then the value has to be one that can be compared
with, then arrays and single values are told apart, then kinds. The value of a filter that is built
stands in its condition as it came. -/
namespace FleetSearch

/-- The conditions that a filter adds to any query, as they are written, and that it changes nothing
else. -/
structure Filter.Adds (f : Filter) (must mustNot : List Json) : Prop where
  must : ∀ q : Query,
    (q.addFilter f).must.map Clause.toJson = q.must.map Clause.toJson ++ must
  mustNot : ∀ q : Query,
    (q.addFilter f).mustNot.map Clause.toJson = q.mustNot.map Clause.toJson ++ mustNot
  others : ∀ q : Query, q.addFilter f =
    { q with must := (q.addFilter f).must, mustNot := (q.addFilter f).mustNot }

theorem Filter.adds (f : Filter) :
    f.Adds (f.must.map Clause.toJson) (f.mustNot.map Clause.toJson) where
  must _ := List.map_append
  mustNot _ := List.map_append
  others _ := rfl

/-! ## Operators as they are spelt -/

namespace Operator

/-- Only two operators take arrays, and these take nothing else. -/
theorem arrays_eq (operator : Operator) :
    operator.arrays = if operator.name ∈ ["$in", "$nin"] then .required else .notAllowed := by
  cases operator with
  | range bound => cases bound <;> decide
  | _ => decide

end Operator

namespace Predicate

variable {σ : Type} [Scoping σ]

theorem target_eq {p : Predicate σ} {kind : ValueKind} {isArray : Bool}
    (known : p.operand.kind = .ok (kind, isArray)) : p.target = p.subject.comparedField kind := by
  rw [target, Operand.valueKind_eq known]

/-- What is decided about an operand of a known kind. -/
theorem resolve_of_kind {p : Predicate σ} {kind : ValueKind} {isArray : Bool}
    (known : p.operand.kind = .ok (kind, isArray)) (operator : Operator) :
    p.resolve operator.arrays operator.kinds =
      if isArray = true ∧ operator.name ∉ ["$in", "$nin"] then .error .arrayNotSupported
      else if isArray = false ∧ operator.name ∈ ["$in", "$nin"] then .error .arrayRequired
      else if operator.kinds.accepts kind then .ok ⟨p.target, p.operand.toJson⟩
      else .error (.kindRequired kind) := by
  rw [target_eq known, ← Attribute.comparedField_eq, resolve, known, Operator.arrays_eq]
  by_cases listed : operator.name ∈ ["$in", "$nin"]
  · rw [if_pos listed]
    cases isArray <;> simp [listed] <;> rfl
  · rw [if_neg listed]
    cases isArray <;> simp [listed] <;> rfl

theorem filterBy_of_resolve_error {p : Predicate σ} {operator : Operator} {e : FilterError}
    (failed : p.resolve operator.arrays operator.kinds = .error e) :
    p.filterBy operator = .error e := by
  rw [filterBy, failed]
  rfl

/-- Once its value is resolved a filter is built, and adds what is asked for. -/
theorem exists_filterBy_of_resolve {subject : Attribute σ} {operator : Operator} {value : Json}
    {kind : ValueKind} (known : value.OfKind kind (decide (operator.name ∈ ["$in", "$nin"])))
    (accepted : operator.kinds.accepts kind = true) {c : Comparison}
    (resolved : (Predicate.of subject operator (Operand.ofJson value)).resolve
      operator.arrays operator.kinds = .ok c) :
    ∃ f, (Predicate.of subject operator (Operand.ofJson value)).filterBy operator = .ok f ∧
      f.Adds (subject.conditions operator.name kind value).1
        (subject.conditions operator.name kind value).2 := by
  have field : (Predicate.of subject operator (Operand.ofJson value)).target =
      subject.comparedField kind :=
    target_eq ((Operand.kind_ofJson_iff value kind _).mpr known)
  obtain rfl := resolve_eq resolved
  rw [field] at resolved
  have verbatim : (Predicate.of subject operator (Operand.ofJson value)).operand.toJson = value :=
    Operand.toJson_ofJson value
  rw [verbatim] at resolved
  rw [filterBy, resolved]
  cases operator with
  | range bound => cases bound <;> exact ⟨_, rfl, Filter.adds _⟩
  | present =>
    obtain rfl : ValueKind.boolean = kind := eq_of_beq accepted
    cases known with
    | scalar single =>
      cases value with
      | bool wanted => cases wanted <;> exact ⟨_, rfl, Filter.adds _⟩
      | _ => cases single
  | _ => exact ⟨_, rfl, Filter.adds _⟩

end Predicate

/-! ## The verdict -/

end FleetSearch
