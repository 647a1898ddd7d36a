import FleetSearch.Attribute

/-! # Terms

The trees that aggregation requests are made of: each term sorts documents into buckets by the
values of an attribute, and its children sort every bucket further. -/
namespace FleetSearch

inductive Term (σ : Type) where
  | mk (name : String) (subject : Attribute σ) (limit : Int) (children : List (Term σ))
  deriving Repr

namespace Term

variable {σ : Type}

def name : Term σ → String
  | mk name _ _ _ => name

def subject : Term σ → Attribute σ
  | mk _ subject _ _ => subject

def limit : Term σ → Int
  | mk _ _ limit _ => limit

def children : Term σ → List (Term σ)
  | mk _ _ _ children => children

theorem sizeOf_children_lt {t : Term σ} {terms : List (Term σ)} (member : t ∈ terms) :
    sizeOf t.children < sizeOf terms := by
  obtain ⟨name, subject, limit, below⟩ := t
  have within := List.sizeOf_lt_of_mem member
  simp only [mk.sizeOf_spec] at within
  simp only [children]
  omega

/-- What holds of a term whenever it holds of its children holds of every term. -/
@[elab_as_elim]
theorem induction {motive : Term σ → Prop}
    (node : ∀ name subject limit children, (∀ child ∈ children, motive child) →
      motive (mk name subject limit children)) (t : Term σ) : motive t := by
  obtain ⟨name, subject, limit, below⟩ := t
  exact node name subject limit below fun child member => induction node child
termination_by sizeOf t
decreasing_by
  have within := List.sizeOf_lt_of_mem member
  simp only [mk.sizeOf_spec]
  omega

variable [Scoping σ]

instance : Inhabited (Term σ) := ⟨mk "" ⟨Scoping.ofText "", ""⟩ 0 []⟩

/-- The record of a term has the attribute before its scope. -/
def fields (σ : Type) [Scoping σ] : List String :=
  ["name", "attribute"] ++ Scoping.fields σ ++ ["limit", "aggregations"]

def ofPayload? (payload : Payload) : Option (Term σ) :=
  match read : payload.record? (fields σ) with
  | none => none
  | some r =>
    let children : Option (List (Term σ)) :=
      match _ : r.get? "aggregations" with
      | none => some []
      | some (.array items) => items.attach.mapM fun ⟨item, _⟩ => ofPayload? item
      | some _ => none
    do return mk (← r.string "name") (← Attribute.read? r) (← r.int64 "limit") (← children)
termination_by sizeOf payload
decreasing_by
  have inside := Payload.sizeOf_of_get? read ‹r.get? _ = some _›
  have within := List.sizeOf_lt_of_mem ‹item ∈ items›
  simp only [Payload.array.sizeOf_spec] at inside
  omega

/-- A term is read as any other record is, its children as a list of terms. -/
theorem ofPayload?_eq (payload : Payload) :
    ofPayload? (σ := σ) payload = (payload.record? (fields σ)).bind fun r => do
      return mk (← r.string "name") (← Attribute.read? r) (← r.int64 "limit")
        (← r.list "aggregations" ofPayload?) := by
  rw [ofPayload?]
  split
  · rename_i unread
    simp [unread]
  · rename_i r read
    have children : (match _ : r.get? "aggregations" with
        | none => some []
        | some (.array items) => items.attach.mapM fun ⟨item, _⟩ => ofPayload? (σ := σ) item
        | some _ => none) = r.list "aggregations" ofPayload? := by
      simp only [Record.list, Record.field]
      split <;> rename_i got
      · simp [got]
      · simp [got, Payload.list?]
      · rename_i item noArray
        rw [got]
        cases item <;> simp_all [Payload.list?]
    simp only [read, Option.bind_some]
    rw [children]

mutual

def toJson : Term σ → Json
  | mk name subject limit children =>
    .object ([("name", .string name), ("attribute", .string subject.name)] ++
      Scoping.members subject.scope ++
      [("limit", .number (.int limit)), ("aggregations", .array (listJson children))])

def listJson : List (Term σ) → List Json
  | [] => []
  | term :: rest => toJson term :: listJson rest

end

/-! ## Limits on the tree -/

/-- The most terms that stand side by side. -/
def mostTerms : Nat := 100

/-- The most levels below a term. -/
def mostLevels : Nat := 5

def tooManyLevels : String := "too many nested aggregations, limit is " ++ toString mostLevels

/-- Follows the first term that has children down to the end of the budget. Its siblings are looked
at in their own turn, when each of them is checked. -/
def nestingError? (terms : List (Term σ)) : Nat → Option String
  | 0 => some tooManyLevels
  | budget + 1 =>
    match terms.find? (fun term => !term.children.isEmpty) with
    | some term => nestingError? term.children budget
    | none => none

mutual

def violations : Term σ → Violations
  | mk name subject limit children =>
    let own := Violations.check
      (Attribute.check (Violations.check [] "name" [Rule.required name]) subject)
      "limit" [Rule.atLeast limit 0]
    if children.isEmpty then own
    else
      own.checkList "aggregations"
        [Rule.length children.length 0 mostTerms, nestingError? children mostLevels]
        (violationsFrom 0 [] children)

/-- The violations of terms in a row, by index. -/
def violationsFrom (index : Nat) (found : Violations) : List (Term σ) → Violations
  | [] => found
  | term :: rest =>
    violationsFrom (index + 1) (found.nest (toString index) (violations term)) rest

end

theorem violationsFrom_eq (index : Nat) (found : Violations) (terms : List (Term σ)) :
    violationsFrom index found terms = Violations.eachFrom violations index found terms := by
  induction terms generalizing index found with
  | nil => rfl
  | cons term rest ih => rw [violationsFrom, Violations.eachFrom, ih]

/-- The terms on top of a request, of which there has to be one. -/
def checkTop (found : Violations) (terms : List (Term σ)) : Violations :=
  if terms.isEmpty then found.add "aggregations" Rule.blank
  else
    found.checkList "aggregations" [Rule.length terms.length 1 mostTerms]
      (Violations.each violations terms)

end Term

end FleetSearch
