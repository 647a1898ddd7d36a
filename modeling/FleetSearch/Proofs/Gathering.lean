import FleetSearch.Proofs.Trees

/-! # How violations are gathered

All checks start from no violations and go on in steps: a field is given a message, or the violations
of a part. Fields and messages are plain words and numbers, without the marks between which
violations are written. So what a step keeps holds of all violations of requests and of their
parts. -/
namespace FleetSearch

/-- The marks between which violations are written. -/
def Violation.marks : List Char := [':', ';', '(', ')', '.']

def Unmarked (text : String) : Prop := ∀ mark ∈ Violation.marks, mark ∉ text.toList

-- A check of all marks, not of all characters that there are.
instance : DecidablePred Unmarked := fun _ => List.decidableBAll _ Violation.marks

theorem unmarked_toString (n : Nat) : Unmarked (toString n) := by
  intro mark known digit
  rw [Nat.toString_eq_ofList_toDigits, String.toList_ofList] at digit
  have isDigit := Nat.isDigit_of_mem_toDigits (by decide) (by decide) digit
  have noDigits : Violation.marks.filter Char.isDigit = [] := by decide
  exact List.filter_eq_nil_iff.mp noDigits mark known isDigit

/-! ## Rules -/

/-- What some rules can answer with is unmarked. -/
def Rule.Clear (rules : List (Option String)) : Prop :=
  ∀ message, some message ∈ rules → Unmarked message

namespace Rule.Clear

variable {rules : List (Option String)}

theorem nil : Clear [] := nofun

theorem cons {rule : Option String} (first : ∀ message, rule = some message → Unmarked message)
    (others : Clear rules) : Clear (rule :: rules) := by
  intro message member
  obtain told | member := List.mem_cons.mp member
  · exact first message told.symm
  · exact others message member

theorem failing {broken : Bool} {message : String} (unmarked : Unmarked message)
    (others : Clear rules) : Clear (Rule.failing broken message :: rules) := by
  refine .cons ?_ others
  intro told failed
  obtain ⟨_, rfl⟩ := (failing_eq_some_iff _ _ _).mp failed
  exact unmarked

theorem required (value : String) : Clear [Rule.required value] := .failing (by decide) .nil

/-- A field that has to hold one of some values fails as blank or as unlisted. -/
theorem choice (value : String) (allowed : List String) :
    Clear [Rule.required value, Rule.oneOf value allowed] :=
  .failing (by decide) (.failing (by decide) .nil)

theorem latitude (x : Option Coordinate) : Clear (Coordinate.rules 90 x) := by
  cases x with
  | none => exact .cons (by rintro _ ⟨⟩; decide) .nil
  | some x => exact .failing (by decide) (.failing (by decide) .nil)

theorem longitude (x : Option Coordinate) : Clear (Coordinate.rules 180 x) := by
  cases x with
  | none => exact .cons (by rintro _ ⟨⟩; decide) .nil
  | some x => exact .failing (by decide) (.failing (by decide) .nil)

/-- The terms below a term are too many or too deep. -/
theorem children {σ : Type} (terms : List (Term σ)) (count : Nat) : Clear
    [Rule.length count 0 Term.mostTerms, Term.nestingError? terms Term.mostLevels] := by
  refine .failing (by decide) (.cons ?_ .nil)
  intro message refused
  rw [Term.nestingError?_eq_some refused]
  decide

end Rule.Clear

/-! ## Steps -/

namespace Violations

/-- What the steps of checks gather, with unmarked fields and messages. -/
inductive Gathered : Violations → Prop where
  | nil : Gathered []
  | add {found : Violations} {field message : String} : Gathered found → Unmarked field →
    Unmarked message → Gathered (found.add field message)
  | nest {found inner : Violations} {field : String} : Gathered found → Unmarked field →
    Gathered inner → Gathered (found.nest field inner)

namespace Gathered

variable {found items : Violations} {field : String} {rules : List (Option String)}

theorem checkList (gathered : found.Gathered) (named : Unmarked field) (clear : Rule.Clear rules)
    (parts : items.Gathered) : (found.checkList field rules items).Gathered := by
  unfold Violations.checkList
  split
  · rename_i message failed
    obtain ⟨rule, member, told⟩ := List.exists_of_findSome?_eq_some failed
    cases told
    exact gathered.add named (clear message member)
  · exact gathered.nest named parts

theorem check (gathered : found.Gathered) (named : Unmarked field) (clear : Rule.Clear rules) :
    (found.check field rules).Gathered :=
  gathered.checkList named clear .nil

theorem eachFrom {α : Type} {check : α → Violations} {items : List α}
    (parts : ∀ item ∈ items, (check item).Gathered) (gathered : found.Gathered) (index : Nat) :
    (eachFrom check index found items).Gathered := by
  induction items generalizing index found with
  | nil => exact gathered
  | cons item rest ih =>
    obtain ⟨first, others⟩ := List.forall_mem_cons.mp parts
    exact ih others (gathered.nest (unmarked_toString index) first) _

theorem each {α : Type} {check : α → Violations} {items : List α}
    (parts : ∀ item ∈ items, (check item).Gathered) : (each check items).Gathered :=
  .eachFrom parts .nil 0

theorem first {parts : List Violations} (gathered : ∀ part ∈ parts, part.Gathered) :
    (Violations.first parts).Gathered := by
  obtain member | fine := first_mem_or_nil parts
  · exact gathered _ member
  · rw [fine]
    exact .nil

theorem nestRequired {α : Type} (gathered : found.Gathered) (named : Unmarked field)
    (isBlank : α → Bool) {check : α → Violations} (parts : ∀ part, (check part).Gathered)
    (part : Option α) : (found.nestRequired field isBlank check part).Gathered := by
  have blank : Unmarked Rule.blank := by decide
  cases part with
  | none => exact gathered.add named blank
  | some part =>
    rw [Violations.nestRequired]
    split
    · exact gathered.add named blank
    · exact gathered.nest named (parts part)

theorem scoping {σ : Type} [Scoping σ] (gathered : found.Gathered) (scope : σ) :
    (Scoping.check found scope).Gathered := by
  unfold Scoping.check
  split
  · exact gathered.check (by decide) (.required _)
  · exact gathered

theorem subject {σ : Type} [Scoping σ] (gathered : found.Gathered) (a : Attribute σ) :
    (Attribute.check found a).Gathered :=
  (gathered.scoping a.scope).check (by decide) (.required _)

end Gathered

end Violations

/-! ## Checks -/

open Violations

theorem Attribute.gathered_violations {σ : Type} [Scoping σ] (a : Attribute σ) :
    a.violations.Gathered :=
  Gathered.nil.subject a

theorem Predicate.gathered_violations {σ : Type} [Scoping σ] (p : Predicate σ) :
    p.violations.Gathered := by
  have checked : (Violations.check (Attribute.check [] p.subject) "type"
      [Rule.required p.operator, Rule.oneOf p.operator Operator.names]).Gathered :=
    (Gathered.nil.subject p.subject).check (by decide) (.choice _ _)
  unfold violations
  split
  · exact checked.add (by decide) (by decide)
  · exact checked

theorem SortKey.gathered_violations {σ : Type} [Scoping σ] (k : SortKey σ) :
    k.violations.Gathered :=
  (Gathered.nil.subject k.subject).check (by decide) (.choice _ _)

theorem Term.gathered_violations {σ : Type} [Scoping σ] (t : Term σ) : t.violations.Gathered := by
  induction t using Term.induction with
  | node name subject limit children ih =>
    have named : (Violations.check [] "name" [Rule.required name]).Gathered :=
      Gathered.nil.check (by decide) (.required name)
    have own : (Violations.check
        (Attribute.check (Violations.check [] "name" [Rule.required name]) subject)
        "limit" [Rule.atLeast limit 0]).Gathered :=
      (named.subject subject).check (by decide) (.failing (by decide) .nil)
    rw [violations]
    split
    · exact own
    · rw [violationsFrom_eq]
      exact own.checkList (by decide) (.children _ _) (.each ih)

theorem Term.gathered_checkTop {σ : Type} [Scoping σ] (terms : List (Term σ)) :
    (Term.checkTop [] terms).Gathered := by
  unfold checkTop
  split
  · exact Gathered.nil.add (by decide) (by decide)
  · exact Gathered.nil.checkList (by decide) (.failing (by decide) .nil)
      (.each fun t _ => t.gathered_violations)

theorem Point.gathered_violations (p : Point) : p.violations.Gathered :=
  (Gathered.nil.check (by decide) (.latitude _)).check (by decide) (.longitude _)

theorem Circle.gathered_violations (c : Circle) : c.violations.Gathered :=
  (Gathered.nil.check (by decide) (.required _)).nestRequired (by decide) _
    Point.gathered_violations c.location

theorem Rectangle.gathered_violations (b : Rectangle) : b.violations.Gathered :=
  (Gathered.nil.nestRequired (by decide) _ Point.gathered_violations b.topLeft).nestRequired
    (by decide) _ Point.gathered_violations b.bottomRight

theorem BoundingBox.gathered_violations (b : BoundingBox) : b.violations.Gathered :=
  Gathered.nil.nestRequired (by decide) _ Rectangle.gathered_violations b.location

theorem DistanceFilter.gathered_violations (f : DistanceFilter) : f.violations.Gathered :=
  Gathered.nil.nestRequired (by decide) _ Circle.gathered_violations f.circle

theorem BoxFilter.gathered_violations (f : BoxFilter) : f.violations.Gathered :=
  Gathered.nil.nestRequired (by decide) _ BoundingBox.gathered_violations f.box

theorem GeoFilters.gathered_check {found : Violations} (gathered : found.Gathered)
    (g : GeoFilters) : (GeoFilters.check found g).Gathered := by
  have distance (f : DistanceFilter) {found : Violations} (gathered : found.Gathered) :
      (found.nest "geo_distance_filter" f.violations).Gathered :=
    gathered.nest (by decide) f.gathered_violations
  have box (f : BoxFilter) {found : Violations} (gathered : found.Gathered) :
      (found.nest "geo_bounding_box_filter" f.violations).Gathered :=
    gathered.nest (by decide) f.gathered_violations
  obtain ⟨_ | f, _ | b⟩ := g
  · exact gathered
  · exact box b gathered
  · exact distance f gathered
  · exact box b (distance f gathered)

/-- What is wrong with a request is gathered in steps, whatever it asks for. -/
theorem Request.gathered_violations (r : Request) : r.violations.Gathered := by
  have filters {σ : Type} [Scoping σ] (predicates : List (Predicate σ)) :
      ∀ part ∈ predicates.map Predicate.violations, part.Gathered :=
    List.forall_mem_map.mpr fun p _ => p.gathered_violations
  have results {σ : Type} [Scoping σ] (predicates : List (Predicate σ)) (keys : List (SortKey σ))
      (attributes : List (Attribute σ)) : ∀ part ∈ predicates.map Predicate.violations ++
        keys.map SortKey.violations ++ attributes.map Attribute.violations, part.Gathered := by
    have sort : ∀ part ∈ keys.map SortKey.violations, part.Gathered :=
      List.forall_mem_map.mpr fun k _ => k.gathered_violations
    have selected : ∀ part ∈ attributes.map Attribute.violations, part.Gathered :=
      List.forall_mem_map.mpr fun a _ => a.gathered_violations
    exact List.forall_mem_append.mpr
      ⟨List.forall_mem_append.mpr ⟨filters predicates, sort⟩, selected⟩
  cases r with
  | deviceSearch s =>
    have geo := GeoFilters.gathered_check .nil s.geo
    exact .first (List.forall_mem_cons.mpr ⟨geo, results s.filters s.sort s.attributes⟩)
  | deviceSummary s =>
    have top := GeoFilters.gathered_check (Term.gathered_checkTop s.aggregations) s.geo
    exact .first (List.forall_mem_cons.mpr ⟨top, filters s.filters⟩)
  | deploymentSearch s => exact .first (results s.filters s.sort s.attributes)
  | deploymentSummary s =>
    have top := Term.gathered_checkTop s.aggregations
    exact .first (List.forall_mem_cons.mpr ⟨top, filters s.filters⟩)

end FleetSearch
