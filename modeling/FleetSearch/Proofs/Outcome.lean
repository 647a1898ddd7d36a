import FleetSearch.Proofs.Acceptance
import FleetSearch.Proofs.Compiled

/-! # Outcomes

What becomes of a request is decided in one order. Its parts are looked at one after the other, and
the first faulty one is the answer. Then its filters are built one after the other, and the first that
cannot be built is the answer. Nothing else can fail. -/
namespace FleetSearch

/-- What the first failure in a row says, and that those before it did not fail. -/
theorem mapM_eq_error_iff {ε α β : Type} (f : α → Except ε β) (xs : List α) (e : ε) :
    xs.mapM f = .error e ↔ ∃ before x after, xs = before ++ x :: after ∧
      (∀ y ∈ before, ∃ b, f y = .ok b) ∧ f x = .error e := by
  induction xs with
  | nil => simp [pure, Except.pure]
  | cons x rest ih =>
    rw [List.mapM_cons]
    cases head : f x with
    | error problem =>
      constructor
      · intro failed
        cases failed
        exact ⟨[], x, rest, rfl, by simp, head⟩
      · rintro ⟨_ | ⟨y, before⟩, z, after, same, built, failed⟩
        · cases same
          rw [head] at failed
          cases failed
          rfl
        · cases same
          obtain ⟨b, ok⟩ := built x List.mem_cons_self
          rw [head] at ok
          cases ok
    | ok b =>
      have later : (do let bs ← rest.mapM f; pure (b :: bs)) = Except.error e ↔
          rest.mapM f = .error e := by
        cases rest.mapM f <;> simp [bind, Except.bind, pure, Except.pure]
      refine later.trans (ih.trans ?_)
      constructor
      · rintro ⟨before, z, after, rfl, built, failed⟩
        refine ⟨x :: before, z, after, rfl, ?_, failed⟩
        exact List.forall_mem_cons.mpr ⟨⟨b, head⟩, built⟩
      · rintro ⟨_ | ⟨y, before⟩, z, after, same, built, failed⟩
        · cases same
          rw [head] at failed
          cases failed
        · cases same
          exact ⟨before, z, after, rfl, fun y h => built y (List.mem_cons_of_mem _ h), failed⟩

/-! ## The first faulty part -/

namespace Violations

/-- The violations of a part under its name, if it has any. -/
def entry (field : String) (inner : Violations) : Violations :=
  if inner.isEmpty then [] else [(field, .nested inner)]

/-- The violations are those of the first part that has any. -/
def FirstOf (violations : Violations) (parts : List Violations) : Prop :=
  violations ≠ [] ∧ ∃ before after, parts = before ++ violations :: after ∧ ∀ part ∈ before, part = []

theorem first_firstOf {parts : List Violations} (faulty : first parts ≠ []) :
    (first parts).FirstOf parts := by
  cases found : parts.find? (!·.isEmpty) with
  | none => simp [first, found] at faulty
  | some part =>
    have same : first parts = part := by simp [first, found]
    obtain ⟨_, before, after, split, fine⟩ := List.find?_eq_some_iff_append.mp found
    rw [same] at faulty ⊢
    exact ⟨faulty, before, after, split, fun b h => by simpa using fine b h⟩

theorem nest_nil (field : String) (inner : Violations) : nest [] field inner = entry field inner := by
  cases inner <;> rfl

/-- The violations of a part stand where its name belongs. -/
theorem nest_between {before after : Violations} {field : String}
    (late : ∀ entry ∈ before, field ≠ entry.1 ∧ nameBefore field.toList entry.1.toList = false)
    (early : ∀ entry ∈ after, field ≠ entry.1 ∧ nameBefore field.toList entry.1.toList = true)
    (inner : Violations) :
    nest (before ++ after) field inner = before ++ entry field inner ++ after := by
  cases inner with
  | nil => simp [nest, entry]
  | cons violation rest => simp [nest, entry, Table.insert_between late early]

theorem fst_of_mem_entry {field : String} {inner : Violations} {e : String × Violation}
    (h : e ∈ entry field inner) : e.1 = field := by
  unfold entry at h
  split at h
  · cases h
  · rw [List.mem_singleton.mp h]

theorem get?_entry (field : String) {inner : Violations} (faulty : inner ≠ []) :
    (entry field inner).get? field = some (.nested inner) := by
  simp [entry, get?, faulty]

theorem get?_entry_of_ne {field other : String} (apart : field ≠ other) (inner : Violations) :
    (entry other inner).get? field = none := by
  apply List.lookup_eq_none_iff.mpr
  intro e member
  rw [fst_of_mem_entry member]
  simpa using apart

theorem get?_append (before after : Violations) (field : String) :
    get? (before ++ after) field = (before.get? field).or (after.get? field) :=
  List.lookup_append

end Violations

/-- What is wrong with the shapes, under the names of their filters. -/
def GeoFilters.violations (g : GeoFilters) : Violations :=
  Violations.entry "geo_bounding_box_filter" (g.box.elim [] BoxFilter.violations) ++
    Violations.entry "geo_distance_filter" (g.distance.elim [] DistanceFilter.violations)

/-- What is wrong with the terms on top: there are none, too many, or some are faulty. -/
def Term.topViolations {σ : Type} [Scoping σ] (terms : List (Term σ)) : Violations :=
  if terms.isEmpty then [("aggregations", .message "cannot be blank")]
  else if 100 < terms.length then
    [("aggregations", .message "the length must be between 1 and 100")]
  else Violations.entry "aggregations" (Violations.each Term.violations terms)

theorem Term.checkTop_eq {σ : Type} [Scoping σ] (terms : List (Term σ)) :
    Term.checkTop [] terms = Term.topViolations terms := by
  unfold checkTop topViolations
  split
  · rfl
  · rename_i present
    have positive : 1 ≤ terms.length := by
      cases terms with
      | nil => simp at present
      | cons t rest => simp
    split
    · rename_i many
      have broken : Rule.length terms.length 1 mostTerms =
          some "the length must be between 1 and 100" := by
        have : ¬ terms.length ≤ 100 := by omega
        simp [Rule.length, Rule.failing, mostTerms, this]
        rfl
      simp [Violations.checkList, broken, Violations.add, Table.insert]
    · rename_i few
      have holds : Rule.length terms.length 1 mostTerms = none :=
        (Rule.length_eq_none_iff _ _ _).mpr ⟨positive, by simp only [mostTerms]; omega⟩
      simp only [Violations.checkList, holds, List.findSome?_cons, id_eq, List.findSome?_nil]
      exact Violations.nest_nil _ _

theorem Term.fst_of_mem_topViolations {σ : Type} [Scoping σ] {terms : List (Term σ)}
    {e : String × Violation} (h : e ∈ Term.topViolations terms) : e.1 = "aggregations" := by
  unfold topViolations at h
  split at h
  · rw [List.mem_singleton.mp h]
  · split at h
    · rw [List.mem_singleton.mp h]
    · exact Violations.fst_of_mem_entry h

/-- The shapes are told after the terms, and the box before the distance, as the order of the names
has it. -/
theorem GeoFilters.check_eq (g : GeoFilters) {found : Violations}
    (terms : ∀ e ∈ found, e.1 = "aggregations") : GeoFilters.check found g = found ++ g.violations := by
  have late (field : String)
      (after : field ≠ "aggregations" ∧ nameBefore field.toList "aggregations".toList = false) :
      ∀ e ∈ found, field ≠ e.1 ∧ nameBefore field.toList e.1.toList = false := by
    intro e h
    rw [terms e h]
    exact after
  have early (inner : Violations) : ∀ e ∈ Violations.entry "geo_distance_filter" inner,
      "geo_bounding_box_filter" ≠ e.1 ∧
        nameBefore "geo_bounding_box_filter".toList e.1.toList = true := by
    intro e h
    rw [Violations.fst_of_mem_entry h]
    decide
  have distance (inner : Violations) : found.nest "geo_distance_filter" inner =
      found ++ Violations.entry "geo_distance_filter" inner := by
    have last := Violations.nest_between (late "geo_distance_filter" (by decide))
      (List.forall_mem_nil _) inner
    simpa using last
  calc GeoFilters.check found g
      = (found.nest "geo_distance_filter" (g.distance.elim [] DistanceFilter.violations)).nest
          "geo_bounding_box_filter" (g.box.elim [] BoxFilter.violations) := by
        obtain ⟨_ | f, _ | b⟩ := g <;> rfl
    _ = found ++ g.violations := by
        rw [distance, Violations.nest_between (late _ (by decide)) (early _), List.append_assoc]
        rfl

namespace Request

/-- What can be faulty in a request, in the order in which it is looked at. -/
def parts : Request → List Violations
  | deviceSearch search =>
    search.geo.violations :: (search.filters.map Predicate.violations ++
      search.sort.map SortKey.violations ++ search.attributes.map Attribute.violations)
  | deviceSummary summary =>
    (Term.topViolations summary.aggregations ++ summary.geo.violations) ::
      summary.filters.map Predicate.violations
  | deploymentSearch search =>
    search.filters.map Predicate.violations ++ search.sort.map SortKey.violations ++
      search.attributes.map Attribute.violations
  | deploymentSummary summary =>
    Term.topViolations summary.aggregations :: summary.filters.map Predicate.violations

theorem violations_eq_first (r : Request) : r.violations = Violations.first r.parts := by
  cases r with
  | deviceSearch search =>
    have geo := search.geo.check_eq (List.forall_mem_nil _)
    rw [violations, DeviceSearch.violations, geo, List.nil_append, parts]
  | deviceSummary summary =>
    have named : ∀ e ∈ Term.topViolations summary.aggregations, e.1 = "aggregations" :=
      fun _ => Term.fst_of_mem_topViolations
    rw [violations, DeviceSummary.violations, Term.checkTop_eq, GeoFilters.check_eq _ named, parts]
  | deploymentSearch search => rfl
  | deploymentSummary summary =>
    rw [violations, DeploymentSummary.violations, Term.checkTop_eq, parts]

theorem violations_eq_nil_iff (r : Request) : r.violations = [] ↔ ∀ part ∈ r.parts, part = [] := by
  rw [violations_eq_first, Violations.first_eq_nil_iff]

end Request

/-! ## The first filter that cannot be built -/

namespace Operator

/-- A spelling is valid exactly when it is the name of an operator. -/
theorem rules_hold_iff (text : String) :
    (Rule.required text = none ∧ Rule.oneOf text names = none) ↔
      ∃ operator, ofName? text = some operator := by
  have blank : "" ∉ names := by decide
  have known : (∃ operator, ofName? text = some operator) ↔ text ∈ names := by
    rw [← Option.isSome_iff_exists, Option.isSome_iff_ne_none, Ne, ofName?_eq_none_iff,
      Decidable.not_not]
  rw [known, Rule.required_eq_none_iff, Rule.oneOf, Rule.failing_eq_none_iff]
  constructor
  · rintro ⟨written, listed⟩
    simpa [written] using listed
  · intro listed
    refine ⟨?_, by simp [listed]⟩
    rintro rfl
    exact blank listed

end Operator

theorem Operand.kind_ne_unsupported (operand : Operand) (text : String) :
    operand.kind ≠ .error (.unsupportedOperator text) := by
  cases operand <;> exact nofun

namespace Predicate

variable {σ : Type} [Scoping σ]

theorem violations_eq_nil_iff (p : Predicate σ) :
    p.violations = [] ↔ p.subject.violations = [] ∧
      (∃ operator, Operator.ofName? p.operator = some operator) ∧ p.operand.isNull = false := by
  rw [← Operator.rules_hold_iff]
  unfold violations
  split
  · rename_i null
    simp [Violations.add, Table.insert_ne_nil, null]
  · rename_i some_value
    simp [Violations.check_eq_nil_iff, Attribute.check_eq_nil_iff, some_value]

theorem resolve_ne_unsupported (p : Predicate σ) (arrays : ArrayPolicy) (kinds : KindPolicy)
    (text : String) : p.resolve arrays kinds ≠ .error (.unsupportedOperator text) := by
  unfold resolve
  cases known : p.operand.kind with
  | error problem =>
    intro failed
    cases failed
    exact p.operand.kind_ne_unsupported text known
  | ok form =>
    obtain ⟨kind, isArray⟩ := form
    simp only [bind, Except.bind]
    split
    · exact nofun
    · exact nofun
    · split <;> exact nofun

/-- A filter of a known operator is never refused for its operator. -/
theorem filterBy_ne_unsupported (p : Predicate σ) (operator : Operator) (text : String) :
    p.filterBy operator ≠ .error (.unsupportedOperator text) := by
  unfold filterBy
  cases resolved : p.resolve operator.arrays operator.kinds with
  | error problem =>
    intro failed
    cases failed
    exact p.resolve_ne_unsupported _ _ text resolved
  | ok c =>
    cases operator with
    | present =>
      simp only [bind, Except.bind]
      split <;> exact nofun
    | _ => exact nofun

theorem filter_ne_unsupported {p : Predicate σ} (valid : p.violations = []) (text : String) :
    p.filter ≠ .error (.unsupportedOperator text) := by
  obtain ⟨_, ⟨operator, known⟩, _⟩ := p.violations_eq_nil_iff.mp valid
  simp only [filter, known]
  exact p.filterBy_ne_unsupported operator text

end Predicate

/-- A filter as a client asks for it, and what comes of building it. -/
structure Attempt where
  operator : String
  operand : Operand
  built : Except FilterError Filter

def Predicate.attempt {σ : Type} [Scoping σ] (p : Predicate σ) : Attempt :=
  ⟨p.operator, p.operand, p.filter⟩

/-- Neither its operator nor a missing operand is ever what is wrong with a filter. -/
structure Attempt.Sound (a : Attempt) : Prop where
  operator : ∃ operator, Operator.ofName? a.operator = some operator
  operand : a.operand ≠ .unusable .null
  error : ∀ e text, a.built = .error e → e ≠ .unsupportedOperator text

theorem Predicate.attempt_sound {σ : Type} [Scoping σ] {p : Predicate σ} (valid : p.violations = []) :
    p.attempt.Sound := by
  obtain ⟨_, known, present⟩ := p.violations_eq_nil_iff.mp valid
  refine ⟨known, ?_, ?_⟩
  · intro null
    change p.operand = _ at null
    rw [null] at present
    cases present
  · rintro _ text failed rfl
    exact filter_ne_unsupported valid text failed

namespace Request

/-- The filters of a request, in the order in which they are built. -/
def attempts : Request → List Attempt
  | deviceSearch search => search.filters.map Predicate.attempt
  | deviceSummary summary => summary.filters.map Predicate.attempt
  | deploymentSearch search => search.filters.map Predicate.attempt
  | deploymentSummary summary => summary.filters.map Predicate.attempt

/-- The first filter that cannot be built, with what is wrong with it. -/
def Rejects (r : Request) (rejected : Attempt) (e : FilterError) : Prop :=
  ∃ before after, r.attempts = before ++ rejected :: after ∧
    (∀ a ∈ before, ∃ f, a.built = .ok f) ∧ rejected.built = .error e

theorem filters_eq_mapM (r : Request) : r.filters = r.attempts.mapM Attempt.built := by
  cases r <;> simp only [filters, attempts, List.mapM_map] <;> rfl

theorem filters_eq_error_iff (r : Request) (e : FilterError) :
    r.filters = .error e ↔ ∃ rejected, r.Rejects rejected e := by
  rw [filters_eq_mapM, mapM_eq_error_iff]
  constructor
  · rintro ⟨before, rejected, after, h⟩
    exact ⟨rejected, before, after, h⟩
  · rintro ⟨rejected, before, after, h⟩
    exact ⟨before, rejected, after, h⟩

theorem exists_filters_of_built {r : Request} (built : ∀ a ∈ r.attempts, ∃ f, a.built = .ok f) :
    ∃ filters, r.filters = .ok filters := by
  rw [filters_eq_mapM]
  exact exists_mapM_eq_ok_iff.mpr built

theorem attempts_sound {r : Request} (valid : r.violations = []) : ∀ a ∈ r.attempts, a.Sound := by
  rw [violations_eq_nil_iff] at valid
  have sound {σ : Type} [Scoping σ] {predicates : List (Predicate σ)}
      (parts : ∀ part ∈ predicates.map Predicate.violations, part ∈ r.parts) :
      ∀ a ∈ predicates.map Predicate.attempt, a.Sound := by
    intro a h
    obtain ⟨p, member, rfl⟩ := List.mem_map.mp h
    exact p.attempt_sound (valid _ (parts _ (List.mem_map.mpr ⟨p, member, rfl⟩)))
  cases r <;>
    exact sound fun _ h => by simp only [parts, List.mem_cons, List.mem_append, h, true_or, or_true]

end Request

/-! ## The order -/

namespace Settings

theorem compile_of_invalid {r : Request} (invalid : r.violations ≠ []) (s : Settings)
    (context : Context) : s.compile context r = .error (.invalid r.violations) := by
  rw [compile_eq]
  cases faulty : r.violations with
  | nil => exact absurd faulty invalid
  | cons violation rest => rfl

theorem compile_of_valid {r : Request} (valid : r.violations = []) (s : Settings)
    (context : Context) : s.compile context r =
      (r.filters.map fun filters => ⟨r.index s, r.body s context filters⟩).mapError .filter := by
  rw [compile_eq, valid]
  rfl

/-- A request fails for a filter exactly if it is valid and this filter is the first that cannot be
built. -/
theorem compile_eq_filter_error_iff (s : Settings) (context : Context) (r : Request)
    (e : FilterError) : s.compile context r = .error (.filter e) ↔
      r.violations = [] ∧ ∃ rejected, r.Rejects rejected e := by
  by_cases valid : r.violations = []
  · rw [compile_of_valid valid, ← r.filters_eq_error_iff]
    constructor
    · intro refused
      cases failed : r.filters with
      | ok filters => rw [failed] at refused; cases refused
      | error _ => rw [failed] at refused; cases refused; exact ⟨valid, rfl⟩
    · rintro ⟨_, failed⟩
      rw [failed]
      rfl
  · rw [compile_of_invalid valid]
    simp [valid]

/-- A request with a faulty part fails with the violations of the first such part. A valid one fails
with what is wrong with its first filter that cannot be built, whatever else it asks for and whoever
asks. There is no third way to fail, and none that blames an operator or a missing operand. -/
theorem outcome_in_order (s : Settings) (context : Context) (r : Request) :
    (r.violations ≠ [] →
      s.compile context r = .error (.invalid r.violations) ∧ r.violations.FirstOf r.parts) ∧
    (r.violations = [] → ∀ rejected e, r.Rejects rejected e →
      s.compile context r = .error (.filter e)) ∧
    (r.violations = [] → (∀ a ∈ r.attempts, ∃ f, a.built = .ok f) →
      ∃ found, s.compile context r = .ok found) ∧
    ∀ e, s.compile context r = .error (.filter e) → (∀ text, e ≠ .unsupportedOperator text) ∧
      ∃ rejected, r.Rejects rejected e ∧ rejected.operand ≠ .unusable .null := by
  refine ⟨?_, ?_, ?_, ?_⟩
  · intro invalid
    refine ⟨compile_of_invalid invalid s context, ?_⟩
    rw [Request.violations_eq_first] at invalid ⊢
    exact Violations.first_firstOf invalid
  · intro valid rejected e first
    exact (compile_eq_filter_error_iff s context r e).mpr ⟨valid, rejected, first⟩
  · intro valid built
    obtain ⟨filters, all⟩ := Request.exists_filters_of_built built
    rw [compile_of_valid valid, all]
    exact ⟨_, rfl⟩
  · intro e refused
    obtain ⟨valid, rejected, first⟩ := (compile_eq_filter_error_iff s context r e).mp refused
    have ⟨before, after, split, _, blamed⟩ := first
    have sound := Request.attempts_sound valid rejected (by simp [split])
    exact ⟨fun text => sound.error e text blamed, rejected, first, sound.operand⟩

/-- Nothing is right with this search: its circle is empty, and its filter has neither a known
operator nor an operand. -/
def hopeless : Request :=
  .deviceSearch { DeviceSearch.ofPage 1 20 with
    filters := [⟨⟨⟨"tags"⟩, "env"⟩, "$like", .unusable .null⟩]
    geo := ⟨some ⟨none⟩, none⟩ }

/-- The operands of the last two filters are of the wrong form. -/
def mismatched : Request :=
  .deploymentSearch { DeploymentSearch.ofPage 1 20 with
    filters := [⟨⟨.flat, "status"⟩, "$eq", .string "done"⟩,
      ⟨⟨.flat, "retries"⟩, "$in", .number (.int 3)⟩, ⟨⟨.flat, "finished"⟩, "$exists", .string "yes"⟩] }

theorem outcome_in_order_mixed :
    (standard.compile ⟨"acme", ["east"]⟩ hopeless = .error (.invalid
        [("geo_distance_filter", .nested [("geo_distance", .message "cannot be blank")])]) ∧
      standard.compile ⟨"acme", ["east"]⟩ mismatched = .error (.filter .arrayRequired)) ∧
    ∃ found, standard.compile ⟨"", []⟩ (.deviceSearch (DeviceSearch.ofPage 0 0)) = .ok found := by
  have faulty : hopeless.violations =
      [("geo_distance_filter", .nested [("geo_distance", .message "cannot be blank")])] := rfl
  have invalid : hopeless.violations ≠ [] := by simp [faulty]
  have first : mismatched.Rejects
      (Predicate.attempt ⟨⟨Flat.flat, "retries"⟩, "$in", .number (.int 3)⟩) .arrayRequired := by
    refine ⟨[_], [_], rfl, ?_, rfl⟩
    exact List.forall_mem_singleton.mpr ⟨_, rfl⟩
  refine ⟨⟨?_, ?_⟩, ?_⟩
  · rw [← faulty]
    exact ((outcome_in_order standard ⟨"acme", ["east"]⟩ hopeless).1 invalid).1
  · exact (outcome_in_order standard ⟨"acme", ["east"]⟩ mismatched).2.1 rfl _ _ first
  · exact (outcome_in_order standard ⟨"", []⟩ _).2.2.1 rfl (List.forall_mem_nil _)

end Settings

end FleetSearch
