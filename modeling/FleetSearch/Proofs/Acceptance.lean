import FleetSearch.Summary

/-! # Acceptance

A request is accepted when nothing is wrong with it. Each way of gathering violations gathers none
exactly when all its parts are in order. -/
namespace FleetSearch

namespace Rule

theorem failing_eq_none_iff (broken : Bool) (message : String) :
    failing broken message = none ↔ broken = false := by
  cases broken <;> simp [failing]

theorem failing_eq_some_iff (broken : Bool) (message text : String) :
    failing broken message = some text ↔ broken = true ∧ text = message := by
  cases broken <;> simp [failing, eq_comm]

theorem required_eq_none_iff (value : String) : required value = none ↔ value ≠ "" := by
  simp [required, failing_eq_none_iff]

theorem atLeast_eq_none_iff (value bound : Int) : atLeast value bound = none ↔ bound ≤ value := by
  simp [atLeast, failing_eq_none_iff]

theorem length_eq_none_iff (count least most : Nat) :
    length count least most = none ↔ least ≤ count ∧ count ≤ most := by
  simp [length, failing_eq_none_iff]

end Rule

namespace Violations

theorem nest_eq_nil_iff (violations : Violations) (field : String) (inner : Violations) :
    violations.nest field inner = [] ↔ violations = [] ∧ inner = [] := by
  cases inner with
  | nil => simp [nest]
  | cons head rest => simp [nest, Table.insert_ne_nil]

theorem checkList_eq_nil_iff (violations : Violations) (field : String)
    (rules : List (Option String)) (items : Violations) :
    violations.checkList field rules items = [] ↔
      violations = [] ∧ (∀ rule ∈ rules, rule = none) ∧ items = [] := by
  have hold_iff : rules.findSome? id = none ↔ ∀ rule ∈ rules, rule = none :=
    List.findSome?_eq_none_iff
  unfold checkList
  cases failed : rules.findSome? id with
  | none =>
    have hold := hold_iff.mp failed
    change violations.nest field items = [] ↔ _
    rw [nest_eq_nil_iff]
    exact ⟨fun h => ⟨h.1, hold, h.2⟩, fun h => ⟨h.1, h.2.2⟩⟩
  | some message =>
    constructor
    · intro h
      exact absurd h (Table.insert_ne_nil _ _ _)
    · rintro ⟨_, hold, _⟩
      rw [hold_iff.mpr hold] at failed
      cases failed

/-- A field is checked as a list without items is. -/
theorem check_eq_nil_iff (violations : Violations) (field : String) (rules : List (Option String)) :
    violations.check field rules = [] ↔ violations = [] ∧ ∀ rule ∈ rules, rule = none := by
  have same : violations.check field rules = violations.checkList field rules [] := rfl
  rw [same, checkList_eq_nil_iff]
  simp

theorem eachFrom_eq_nil_iff {α : Type} (check : α → Violations) (index : Nat)
    (violations : Violations) (items : List α) :
    eachFrom check index violations items = [] ↔
      violations = [] ∧ ∀ item ∈ items, check item = [] := by
  induction items generalizing index violations with
  | nil => simp [eachFrom]
  | cons item rest ih => rw [eachFrom, ih, nest_eq_nil_iff, List.forall_mem_cons, and_assoc]

theorem first_eq_nil_iff (parts : List Violations) :
    first parts = [] ↔ ∀ part ∈ parts, part = [] := by
  unfold first
  cases found : parts.find? (!·.isEmpty) with
  | none => simpa using found
  | some part =>
    have faulty : part ≠ [] := by simpa using List.find?_some found
    constructor
    · intro h
      exact absurd h faulty
    · intro h
      exact absurd (h part (List.mem_of_find?_eq_some found)) faulty

end Violations

theorem Attribute.check_eq_nil_iff {σ : Type} [Scoping σ] (violations : Violations)
    (a : Attribute σ) : Attribute.check violations a = [] ↔ violations = [] ∧ a.violations = [] := by
  simp only [Attribute.violations, Attribute.check, Scoping.check, Violations.check_eq_nil_iff]
  split <;> simp [Violations.check_eq_nil_iff, and_assoc]

namespace Term

variable {σ : Type} [Scoping σ]

/-- Nothing is wrong with a term when its own fields are in order, its children are neither too many
nor nested too deep where they are walked, and nothing is wrong with any of them. -/
theorem violations_eq_nil_iff (t : Term σ) :
    t.violations = [] ↔
      (t.name ≠ "" ∧ t.subject.violations = [] ∧ 0 ≤ t.limit) ∧ t.children.length ≤ mostTerms ∧
        nestingError? t.children mostLevels = none ∧ ∀ child ∈ t.children, child.violations = [] := by
  obtain ⟨name, subject, limit, children⟩ := t
  have own : Violations.check
      (Attribute.check (Violations.check [] "name" [Rule.required name]) subject)
      "limit" [Rule.atLeast limit 0] = [] ↔ name ≠ "" ∧ subject.violations = [] ∧ 0 ≤ limit := by
    simp [Violations.check_eq_nil_iff, Attribute.check_eq_nil_iff, Rule.required_eq_none_iff,
      Rule.atLeast_eq_none_iff, and_assoc]
  cases children with
  | nil =>
    have walked : nestingError? ([] : List (Term σ)) mostLevels = none := rfl
    simpa [violations, Term.name, Term.subject, Term.limit, Term.children, walked] using own
  | cons child rest =>
    simp only [violations, List.isEmpty_cons, Bool.false_eq_true, if_false,
      Violations.checkList_eq_nil_iff, own, violationsFrom_eq, Violations.eachFrom_eq_nil_iff,
      List.forall_mem_cons, Rule.length_eq_none_iff, List.not_mem_nil, false_imp_iff, implies_true,
      and_true, Nat.zero_le, true_and, and_assoc, Term.name, Term.subject, Term.limit, Term.children]

/-- Nothing is wrong with the terms on top when there is one, not too many, and nothing is wrong
with any of them. -/
theorem checkTop_eq_nil_iff (terms : List (Term σ)) :
    checkTop [] terms = [] ↔
      terms ≠ [] ∧ terms.length ≤ mostTerms ∧ ∀ t ∈ terms, t.violations = [] := by
  unfold checkTop Violations.each
  cases terms with
  | nil => simp [Violations.add, Table.insert_ne_nil]
  | cons t rest =>
    simp [Violations.checkList_eq_nil_iff, Violations.eachFrom_eq_nil_iff, Rule.length_eq_none_iff]

end Term

theorem GeoFilters.check_eq_nil_iff (violations : Violations) (g : GeoFilters) :
    GeoFilters.check violations g = [] ↔ violations = [] ∧ GeoFilters.check [] g = [] := by
  obtain ⟨_ | f, _ | box⟩ := g <;> simp [GeoFilters.check, Violations.nest_eq_nil_iff, and_assoc]

/-- A summary of devices is accepted when its terms, its shapes and its filters are in order. -/
theorem DeviceSummary.violations_eq_nil_iff (s : DeviceSummary) :
    s.violations = [] ↔ Term.checkTop [] s.aggregations = [] ∧ GeoFilters.check [] s.geo = [] ∧
      ∀ p ∈ s.filters, p.violations = [] := by
  rw [violations, Violations.first_eq_nil_iff, List.forall_mem_cons, List.forall_mem_map,
    GeoFilters.check_eq_nil_iff, and_assoc]

/-- A summary of deployments is accepted when its terms and its filters are in order. -/
theorem DeploymentSummary.violations_eq_nil_iff (s : DeploymentSummary) :
    s.violations = [] ↔ Term.checkTop [] s.aggregations = [] ∧ ∀ p ∈ s.filters, p.violations = [] := by
  rw [violations, Violations.first_eq_nil_iff, List.forall_mem_cons, List.forall_mem_map]

end FleetSearch
