import FleetSearch.Proofs.Meaning

/-! # Addressing

A device attribute is kept under one field for each kind of value, and every part of a request that
speaks of the attribute looks it up there. The attribute `id` is the one exception: comparisons find
it in the document's own field, the other parts in fields of its scope. -/
namespace FleetSearch

/-! ## The fields that are looked up -/

namespace Clause

mutual

def fields : Clause → List String
  | matching field _ | range field _ _ | terms field _ | term field _ | regexp field _
  | present field => [field]
  | anyOf clauses => listFields clauses
  | given _ => []

def listFields : List Clause → List String
  | [] => []
  | clause :: rest => fields clause ++ listFields rest

end

end Clause

def Filter.fields (f : Filter) : List String := Clause.listFields (f.must ++ f.mustNot)

/-- All parts of a request look an attribute up under the same fields, one for each kind of value. -/
structure Attribute.AddressedBy (a : Attribute Scope) (field : ValueKind → String) : Prop where
  compared : ∀ operator operand kind isArray f, operator ≠ Operator.present →
    operand.kind = .ok (kind, isArray) → (Predicate.of a operator operand).filter = .ok f →
    f.fields = [field kind]
  presence : ∀ wanted, ∃ f, (Predicate.of a .present (.boolean wanted)).filter = .ok f ∧
    f.fields = [field .string, field .number, field .boolean]
  selected : ∀ q : Query, (q.select [a]).projection =
    some ([field .string, field .number, field .boolean] ++ ["id", "check_in_time"])
  sorted : ∀ (q : Query) order, ∃ order', (q.sortBy ⟨a, order⟩).sort =
    q.sort ++ [.by (field .string) order' "keyword", .by (field .number) order' "double"]
  bucketed : ∀ name limit children, ∃ size, Term.deviceAggregations [.mk name a limit children] =
    [(name, .mk (field .string) size (Term.deviceAggregations children))]

/-! ## Comparisons -/

theorem Operand.valueKind_eq {operand : Operand} {kind : ValueKind} {isArray : Bool}
    (known : operand.kind = .ok (kind, isArray)) : operand.valueKind = kind := by
  cases operand <;> cases known <;> rfl

namespace Predicate

variable {σ : Type} [Scoping σ]

/-- A predicate whose operator is known is built for this operator. -/
theorem filter_of (a : Attribute σ) (operator : Operator) (operand : Operand) :
    (Predicate.of a operator operand).filter = (Predicate.of a operator operand).filterBy operator := by
  simp only [filter, Predicate.of, Operator.ofName?_name]

/-- Whatever is compared, it is the one field for the operand's kind. -/
theorem Built.fields_eq {p : Predicate σ} {operator : Operator} {f : Filter}
    (built : p.Built operator f) (comparing : operator ≠ .present) : f.fields = [p.target] := by
  cases built with
  | present => exact absurd rfl comparing
  | _ => rfl

end Predicate

namespace FieldName

/-- A field in a scope is never the one that all documents are known by. -/
theorem of_ne_id {scope : String} (inScope : scope ≠ "") (name : String) (kind : ValueKind) :
    FieldName.of scope name kind ≠ "id" := by
  intro same
  have mark : '_' ∈ (FieldName.of scope name kind).toList := by
    simp [FieldName.of, inScope]
  rw [same] at mark
  exact absurd mark (by decide)

end FieldName

namespace Attribute

/-- Every attribute but `id` has a field of its scope for each kind. -/
theorem addressedBy_of_ne_id {a : Attribute Scope} (plain : a.name ≠ "id") :
    a.AddressedBy a.field where
  compared := by
    intro operator operand kind isArray f comparing known built
    rw [Predicate.filter_of] at built
    rw [(Predicate.built_of_filterBy built).fields_eq comparing]
    simp only [Predicate.target, Predicate.of, Operand.valueKind_eq known]
    exact congrArg (fun field => [field]) (if_neg plain)
  presence := by
    rintro (_ | _) <;> exact ⟨_, rfl, rfl⟩
  selected := fun _ => rfl
  sorted := by
    intro q order
    exact ⟨_, List.append_assoc q.sort [_] [_]⟩
  bucketed := fun _ _ _ => ⟨_, rfl⟩

/-- What `id` is compared with and where its presence is looked for differ. -/
theorem not_addressedBy_of_id {scope : String} (inScope : scope ≠ "") (field : ValueKind → String) :
    ¬ (Attribute.mk (Scope.mk scope) "id").AddressedBy field := by
  intro addressed
  have compared : field .string = "id" := by
    have same := addressed.compared .equal (.string "") .string false _ (by decide) rfl rfl
    exact (List.singleton_inj.mp same).symm
  obtain ⟨f, built, present⟩ := addressed.presence true
  cases built
  have first : FieldName.of scope "id" .string = field .string := (List.cons.inj present).1
  exact FieldName.of_ne_id inScope "id" .string (first.trans compared)

/-- An attribute in a scope is addressed alike by all parts of a request unless it is `id`. Operands
of every kind are compared with it. -/
theorem addressed_alike_iff (a : Attribute Scope) (inScope : a.scope.name ≠ "") :
    ((∃ field, a.AddressedBy field) ↔ a.name ≠ "id") ∧
    ∀ kind, ∃ operand f, operand.kind = .ok (kind, false) ∧
      (Predicate.of a .equal operand).filter = .ok f := by
  obtain ⟨⟨scope⟩, name⟩ := a
  refine ⟨⟨?_, ?_⟩, ?_⟩
  · rintro ⟨field, addressed⟩ rfl
    exact not_addressedBy_of_id inScope field addressed
  · intro plain
    exact ⟨_, addressedBy_of_ne_id plain⟩
  · rintro (_ | _ | _)
    · exact ⟨.string "", _, rfl, rfl⟩
    · exact ⟨.number (.int 0), _, rfl, rfl⟩
    · exact ⟨.boolean true, _, rfl, rfl⟩

theorem addressed_alike_iff_mac :
    (⟨⟨"identity"⟩, "mac"⟩ : Attribute Scope).scope.name ≠ "" ∧
      ∃ field, (⟨⟨"identity"⟩, "mac"⟩ : Attribute Scope).AddressedBy field := by
  have inScope : (⟨⟨"identity"⟩, "mac"⟩ : Attribute Scope).scope.name ≠ "" := by decide
  exact ⟨inScope, (addressed_alike_iff _ inScope).1.mpr (by decide)⟩

/-- A device is found by its `id`, and yet has none. -/
theorem id_addressed_apart :
    (∃ f, (Predicate.of ⟨Scope.mk "identity", "id"⟩ .equal (.string "gate")).filter = .ok f ∧
      f.fields = ["id"]) ∧
    (∃ f, (Predicate.of ⟨Scope.mk "identity", "id"⟩ .present (.boolean true)).filter = .ok f ∧
      f.fields = ["identity_id_str", "identity_id_num", "identity_id_bool"]) ∧
    ¬ ∃ field, (Attribute.mk (Scope.mk "identity") "id").AddressedBy field := by
  refine ⟨⟨_, rfl, rfl⟩, ⟨_, rfl, by decide⟩, ?_⟩
  rintro ⟨field, addressed⟩
  exact not_addressedBy_of_id (by decide) field addressed

end Attribute

end FleetSearch
