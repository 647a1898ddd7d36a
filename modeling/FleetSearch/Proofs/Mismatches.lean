import FleetSearch.Proofs.Verdicts

/-! # Mismatched operands

A comparison that fails for the form of its operand is told which form it should have had, and one
that fails for the kind is told which kind it has. Either way there are operands with which the same
comparison is built: those of the form and of the kinds that its operator takes. -/
namespace FleetSearch

/-- There are values of every kind, single ones and arrays. -/
theorem Json.exists_ofKind (kind : ValueKind) (isArray : Bool) :
    ∃ value : Json, value.OfKind kind isArray := by
  obtain ⟨single, known⟩ : ∃ single : Json, single.kind? = some kind := by
    cases kind with
    | string => exact ⟨.string "", rfl⟩
    | number => exact ⟨.number (.int 0), rfl⟩
    | boolean => exact ⟨.bool true, rfl⟩
  cases isArray with
  | false => exact ⟨single, .scalar known⟩
  | true => exact ⟨.array [single], .array (List.cons_ne_nil _ _) (by simpa using known)⟩

namespace Operand

/-- A single operand is written as a value of its kind. -/
theorem ofKind_written_of_single {operand : Operand} {kind : ValueKind}
    (known : operand.kind = .ok (kind, false)) : operand.written.OfKind kind false := by
  cases operand <;> cases known <;> exact .scalar rfl

/-- An operand with items is written as an array of one kind; without items it is one of strings,
whatever they would have been. -/
theorem exists_ofKind_written_of_array {operand : Operand} {kind : ValueKind}
    (known : operand.kind = .ok (kind, true)) : ∃ kind, operand.written.OfKind kind true := by
  have written {α : Type} (write : α → Json) {kind : ValueKind}
      (single : ∀ x, (write x).kind? = some kind) (xs : List α) :
      ∃ kind, (Json.array (xs.map write)).OfKind kind true := by
    cases xs with
    | nil => exact ⟨.string, .empty⟩
    | cons x rest => exact ⟨kind, .map single (List.cons_ne_nil x rest)⟩
  cases operand with
  | strings texts => exact written .string (fun _ => rfl) texts
  | numbers ns => exact written .number (fun _ => rfl) ns
  | booleans bs => exact written .bool (fun _ => rfl) bs
  | _ => cases known

end Operand

namespace Operator

/-- The form of the operands that an operator takes. -/
def takesArrays (operator : Operator) : Bool := decide (operator.name ∈ ["$in", "$nin"])

/-- An operator that does not take a kind takes single values of one other kind. -/
theorem kinds_of_refused {operator : Operator} {kind : ValueKind}
    (refused : operator.kinds.accepts kind = false) :
    operator.takesArrays = false ∧
      ∃ taken, taken ≠ kind ∧ ∀ other, operator.kinds.accepts other = true ↔ other = taken := by
  have only (taken other : ValueKind) : (KindPolicy.only taken).accepts other = true ↔
      other = taken := by
    rw [KindPolicy.accepts, beq_iff_eq, eq_comm]
  have apart {taken : ValueKind} (refused : (KindPolicy.only taken).accepts kind = false) :
      taken ≠ kind := by
    rintro rfl
    rw [(only taken taken).mpr rfl] at refused
    cases refused
  cases operator with
  | pattern => exact ⟨by decide, .string, apart refused, only .string⟩
  | present => exact ⟨by decide, .boolean, apart refused, only .boolean⟩
  | _ => cases refused

theorem exists_accepted (operator : Operator) : ∃ kind, operator.kinds.accepts kind = true := by
  cases operator with
  | present => exact ⟨.boolean, rfl⟩
  | _ => exact ⟨.string, rfl⟩

end Operator

namespace Predicate

variable {σ : Type} [Scoping σ]

/-- The same comparison with another value. -/
def withValue (p : Predicate σ) (value : Json) : Predicate σ :=
  { p with operand := Operand.ofJson value }

/-- With this value the comparison is built. -/
def Takes (p : Predicate σ) (value : Json) : Prop := ∃ f, (p.withValue value).filter = .ok f

/-- What is decided about an operand of a known kind, by what the operator takes. -/
theorem resolve_of_takesArrays {p : Predicate σ} {kind : ValueKind} {isArray : Bool}
    (known : p.operand.kind = .ok (kind, isArray)) (operator : Operator) :
    p.resolve operator.arrays operator.kinds =
      if isArray = operator.takesArrays then
        if operator.kinds.accepts kind then .ok ⟨p.target, p.operand.toJson⟩
        else .error (.kindRequired kind)
      else .error (if isArray then .arrayNotSupported else .arrayRequired) := by
  rw [resolve_of_kind known, Operator.takesArrays]
  by_cases listed : operator.name ∈ ["$in", "$nin"] <;> cases isArray <;> simp [listed]

/-- A filter fails for its operand exactly if the operand cannot be resolved. -/
theorem filterBy_eq_error_iff (p : Predicate σ) (operator : Operator) (e : FilterError) :
    p.filterBy operator = .error e ↔ p.resolve operator.arrays operator.kinds = .error e := by
  constructor
  · intro failed
    cases resolved : p.resolve operator.arrays operator.kinds with
    | error problem =>
      rw [filterBy_of_resolve_error resolved] at failed
      cases failed
      rfl
    | ok c =>
      rw [filterBy, resolved] at failed
      cases operator with
      | present =>
        obtain ⟨subject, text, operand⟩ := p
        cases operand with
        | boolean wanted => cases failed
        | _ => cases resolved
      | _ => cases failed
  · exact filterBy_of_resolve_error

/-- What can be wrong with a comparison: its operator, its operand as a value, the form of the
operand, or else its kind. -/
inductive Refused (p : Predicate σ) : FilterError → Prop where
  | unsupported : Refused p (.unsupportedOperator p.operator)
  | unknown (quoted type : String) : Refused p (.unknownOperand quoted type)
  | array {operator : Operator} {kind : ValueKind} : p.operator = operator.name →
    p.operand.kind = .ok (kind, true) → operator.takesArrays = false →
    Refused p .arrayNotSupported
  | single {operator : Operator} {kind : ValueKind} : p.operator = operator.name →
    p.operand.kind = .ok (kind, false) → operator.takesArrays = true → Refused p .arrayRequired
  | kind {operator : Operator} {kind : ValueKind} : p.operator = operator.name →
    p.operand.kind = .ok (kind, operator.takesArrays) → operator.kinds.accepts kind = false →
    Refused p (.kindRequired kind)

theorem refused_of_filter {p : Predicate σ} {e : FilterError} (failed : p.filter = .error e) :
    p.Refused e := by
  unfold filter at failed
  cases found : Operator.ofName? p.operator with
  | none =>
    rw [found] at failed
    cases failed
    exact .unsupported
  | some operator =>
    rw [found] at failed
    have same := List.find?_some found
    have named : p.operator = operator.name := (eq_of_beq same).symm
    have unresolved := (p.filterBy_eq_error_iff operator e).mp failed
    cases known : p.operand.kind with
    | error problem =>
      rw [resolve, known] at unresolved
      cases unresolved
      obtain ⟨quoted, type, rfl⟩ := Operand.kind_eq_error known
      exact .unknown quoted type
    | ok form =>
      obtain ⟨kind, isArray⟩ := form
      rw [resolve_of_takesArrays known] at unresolved
      by_cases fits : isArray = operator.takesArrays
      · subst fits
        rw [if_pos rfl] at unresolved
        split at unresolved
        · cases unresolved
        · rename_i refused
          cases unresolved
          exact .kind named known (Bool.eq_false_iff.mpr refused)
      · rw [if_neg fits] at unresolved
        have other := Bool.eq_not.mpr (Ne.symm fits)
        cases isArray <;> cases unresolved
        · exact .single named known other
        · exact .array named known other

/-- A comparison is built with the values of the form and of the kinds that its operator takes, and
with no others. -/
theorem takes_iff {p : Predicate σ} {operator : Operator} (named : p.operator = operator.name)
    (value : Json) : p.Takes value ↔
      ∃ kind, value.OfKind kind operator.takesArrays ∧ operator.kinds.accepts kind = true := by
  obtain ⟨subject, text, operand⟩ := p
  obtain rfl : text = operator.name := named
  have filtered : (Predicate.of subject operator (Operand.ofJson value)).filter =
      (Predicate.of subject operator (Operand.ofJson value)).filterBy operator :=
    filter_of subject operator _
  constructor
  · rintro ⟨f, built⟩
    rw [withValue, ← Predicate.of, filtered] at built
    have resolvable : ∀ e, (Predicate.of subject operator (Operand.ofJson value)).resolve
        operator.arrays operator.kinds ≠ .error e := by
      intro e failed
      rw [filterBy_of_resolve_error failed] at built
      cases built
    cases known : (Operand.ofJson value).kind with
    | error e =>
      refine absurd ?_ (resolvable e)
      rw [resolve, Predicate.of, known]
      rfl
    | ok form =>
      obtain ⟨kind, isArray⟩ := form
      have resolved := resolve_of_takesArrays
        (p := Predicate.of subject operator (Operand.ofJson value)) known operator
      by_cases fits : isArray = operator.takesArrays
      · rw [if_pos fits] at resolved
        subst fits
        refine ⟨kind, (Operand.kind_ofJson_iff value kind _).mp known, ?_⟩
        by_contra refused
        rw [if_neg refused] at resolved
        exact resolvable _ resolved
      · rw [if_neg fits] at resolved
        exact absurd resolved (resolvable _)
  · rintro ⟨kind, known, accepted⟩
    have resolved := resolve_of_takesArrays
      (p := Predicate.of subject operator (Operand.ofJson value))
      ((Operand.kind_ofJson_iff value kind _).mpr known) operator
    rw [if_pos rfl, if_pos accepted] at resolved
    obtain ⟨f, built, _⟩ := exists_filterBy_of_resolve known accepted resolved
    exact ⟨f, filtered.trans built⟩

/-- There are values with which a comparison is built. -/
theorem exists_takes {p : Predicate σ} {operator : Operator} (named : p.operator = operator.name) :
    ∃ kind value, value.OfKind kind operator.takesArrays ∧ p.Takes value := by
  obtain ⟨kind, accepted⟩ := operator.exists_accepted
  obtain ⟨value, known⟩ := Json.exists_ofKind kind operator.takesArrays
  exact ⟨kind, value, known, (takes_iff named value).mpr ⟨kind, known, accepted⟩⟩

/-- A comparison that fails for a kind has a single operand, which is of the kind that is named, and
this is a kind that it does not take: it is built with the single values of one other kind, and with
nothing else. One that fails for want of an array has a single operand, and is built with some array;
one that fails for an array has one, and is built with some single value. -/
theorem mismatch_names_operand (p : Predicate σ) :
    (∀ kind, p.filter = .error (.kindRequired kind) →
      p.operand.written.OfKind kind false ∧
        ∃ taken, taken ≠ kind ∧ ∀ value, p.Takes value ↔ value.OfKind taken false) ∧
    (p.filter = .error .arrayRequired →
      (∃ kind, p.operand.written.OfKind kind false) ∧
        ∃ kind value, value.OfKind kind true ∧ p.Takes value) ∧
    (p.filter = .error .arrayNotSupported →
      (∃ kind, p.operand.written.OfKind kind true) ∧
        ∃ kind value, value.OfKind kind false ∧ p.Takes value) := by
  refine ⟨?_, ?_, ?_⟩
  · intro kind failed
    cases refused_of_filter failed with
    | kind named known refused =>
      obtain ⟨single, taken, apart, only⟩ := Operator.kinds_of_refused refused
      rw [single] at known
      refine ⟨Operand.ofKind_written_of_single known, taken, apart, ?_⟩
      intro value
      rw [takes_iff named, single]
      simp only [only, exists_eq_right]
  · intro failed
    cases refused_of_filter failed with
    | @single operator kind named known arrays =>
      have taken := exists_takes named
      rw [arrays] at taken
      exact ⟨⟨kind, Operand.ofKind_written_of_single known⟩, taken⟩
  · intro failed
    cases refused_of_filter failed with
    | @array operator kind named known single =>
      have taken := exists_takes named
      rw [single] at taken
      exact ⟨Operand.exists_ofKind_written_of_array known, taken⟩

/-- A presence that is asked for with a text, a single value among arrays and an array to be equal
to. -/
theorem mismatch_names_operand_yes :
    let gate : Attribute Scope := ⟨⟨"identity"⟩, "mac"⟩
    let present : Predicate Scope := .of gate .present (.string "yes")
    let among : Predicate Scope := .of gate .oneOf (.number (.int 3))
    let equal : Predicate Scope := .of gate .equal (.strings ["a", "b"])
    (present.filter = .error (.kindRequired .string) ∧
      present.operand.written.OfKind .string false ∧ ∃ taken, taken ≠ .string ∧
        ∀ value, present.Takes value ↔ value.OfKind taken false) ∧
    (among.filter = .error .arrayRequired ∧
      (∃ kind, among.operand.written.OfKind kind false) ∧
        ∃ kind value, value.OfKind kind true ∧ among.Takes value) ∧
    (equal.filter = .error .arrayNotSupported ∧
      (∃ kind, equal.operand.written.OfKind kind true) ∧
        ∃ kind value, value.OfKind kind false ∧ equal.Takes value) := by
  intro gate present among equal
  have text : present.filter = .error (.kindRequired .string) := rfl
  have single : among.filter = .error .arrayRequired := rfl
  have array : equal.filter = .error .arrayNotSupported := rfl
  exact ⟨⟨text, (mismatch_names_operand present).1 _ text⟩,
    ⟨single, (mismatch_names_operand among).2.1 single⟩,
    array, (mismatch_names_operand equal).2.2 array⟩

/-- A pattern that is a number fails as if numbers were asked for, and no number will do. -/
theorem mismatch_not_told :
    let load : Predicate Scope := .of ⟨⟨"monitor"⟩, "load"⟩ .pattern (.number (.int 1))
    load.filter = .error (.kindRequired .number) ∧
      FilterError.message (.kindRequired .number) = "filter supports only numeric values" ∧
      load.operand.written.OfKind .number false ∧
      (∀ value isArray, value.OfKind .number isArray → ¬ load.Takes value) ∧
      ¬ ∀ (p : Predicate Scope) (kind : ValueKind), p.filter = .error (.kindRequired kind) →
        ¬ p.operand.written.OfKind kind false ∧
          ∃ value isArray, value.OfKind kind isArray ∧ p.Takes value := by
  intro load
  have number : load.operand.written.OfKind .number false := .scalar rfl
  have failed : load.filter = .error (.kindRequired .number) := rfl
  have named : load.operator = Operator.name .pattern := rfl
  refine ⟨failed, rfl, number, ?_, ?_⟩
  · intro value isArray known taken
    obtain ⟨kind, text, accepted⟩ := (takes_iff named value).mp taken
    obtain ⟨rfl, -⟩ := known.unique text
    cases accepted
  · intro told
    exact (told load .number failed).1 number

end Predicate

end FleetSearch
