import FleetSearch.Proofs.Nesting
import FleetSearch.Proofs.Outcome

/-! # Accepted trees

A tree of terms is accepted exactly when each of its terms is in order by itself and the walk below
each of them is short. So a tree of few levels is accepted if its terms are in order, and a request
is faulty in its terms exactly if there are none, too many, or one of them is not accepted. -/
namespace FleetSearch

namespace Term

variable {σ : Type}

/-! ## How deep the walk goes -/

/-- The levels that the walk passes through: the terms themselves, and then those below the first
one that has children. -/
def walkDepth (terms : List (Term σ)) : Nat :=
  if terms.isEmpty then 0
  else
    match followed : walked? terms with
    | some t => 1 + walkDepth t.children
    | none => 1
termination_by sizeOf terms
decreasing_by exact sizeOf_children_lt (List.mem_of_find?_eq_some followed)

theorem walkDepth_nil : walkDepth ([] : List (Term σ)) = 0 := by
  rw [walkDepth]
  rfl

theorem walkDepth_of_walked {terms : List (Term σ)} {t : Term σ}
    (followed : walked? terms = some t) :
    walkDepth terms = 1 + walkDepth t.children := by
  have present : terms.isEmpty = false :=
    List.isEmpty_eq_false_iff.mpr (List.ne_nil_of_mem (List.mem_of_find?_eq_some followed))
  rw [walkDepth, if_neg (by simp [present])]
  split
  · rename_i u found
    rw [followed] at found
    cases found
    rfl
  · rename_i nothing
    rw [followed] at nothing
    cases nothing

theorem walkDepth_of_flat {terms : List (Term σ)} (present : terms ≠ [])
    (flat : walked? terms = none) : walkDepth terms = 1 := by
  rw [walkDepth, if_neg (by simpa using present)]
  split
  · rename_i u found
    rw [flat] at found
    cases found
  · rfl

theorem walked_children_ne_nil {terms : List (Term σ)} {t : Term σ}
    (followed : walked? terms = some t) :
    t.children ≠ [] := by
  have parent := List.find?_some followed
  simpa using parent

theorem walkDepth_pos {terms : List (Term σ)} (present : terms ≠ []) : 0 < walkDepth terms := by
  cases followed : walked? terms with
  | some t =>
    rw [walkDepth_of_walked followed]
    omega
  | none =>
    rw [walkDepth_of_flat present followed]
    omega

/-- Every level of the walk spends one unit of its budget, the last one too. -/
theorem nestingError?_eq_none_iff_walkDepth {terms : List (Term σ)} (present : terms ≠ [])
    (budget : Nat) : nestingError? terms budget = none ↔ walkDepth terms ≤ budget := by
  induction budget generalizing terms with
  | zero =>
    have positive := walkDepth_pos present
    have refused : nestingError? terms 0 ≠ none := nofun
    simp only [refused, false_iff]
    omega
  | succ budget ih =>
    rw [nestingError?_eq_none_iff]
    cases followed : walked? terms with
    | none =>
      have flat := walkDepth_of_flat present followed
      constructor
      · intro _
        omega
      · intro _
        exact ⟨Nat.succ_pos _, nofun⟩
    | some t =>
      have below := ih (walked_children_ne_nil followed)
      rw [walkDepth_of_walked followed]
      constructor
      · rintro ⟨_, fits⟩
        have deep := below.mp (fits t rfl)
        omega
      · intro fits
        refine ⟨Nat.succ_pos _, ?_⟩
        rintro _ ⟨⟩
        exact below.mpr (by omega)

/-! ## Levels -/

mutual

/-- The levels of terms below a term, on the longest branch. -/
def levels : Term σ → Nat
  | mk _ _ _ children => listLevels children

/-- The levels of some terms and of all that stand below them. -/
def listLevels : List (Term σ) → Nat
  | [] => 0
  | term :: rest => max (1 + levels term) (listLevels rest)

end

theorem listLevels_children (t : Term σ) : listLevels t.children = t.levels := by
  obtain ⟨name, subject, limit, children⟩ := t
  rw [levels, Term.children]

theorem levels_lt_listLevels {t : Term σ} {terms : List (Term σ)} (member : t ∈ terms) :
    t.levels < listLevels terms := by
  induction terms with
  | nil => cases member
  | cons first rest ih =>
    rw [listLevels]
    rcases List.mem_cons.mp member with rfl | later
    · omega
    · have := ih later
      omega

theorem Within.levels_lt {t : Term σ} {terms : List (Term σ)} (within : t.Within terms) :
    t.levels < listLevels terms := by
  induction within with
  | here member => exact levels_lt_listLevels member
  | inside member _ ih =>
    have above := levels_lt_listLevels member
    rw [listLevels_children] at ih
    omega

/-- The walk is one of the branches. -/
theorem walkDepth_le_listLevels (terms : List (Term σ)) : walkDepth terms ≤ listLevels terms := by
  cases followed : walked? terms with
  | some t =>
    have member := List.mem_of_find?_eq_some followed
    have smaller := sizeOf_children_lt member
    have below := walkDepth_le_listLevels t.children
    have above := levels_lt_listLevels member
    rw [walkDepth_of_walked followed]
    rw [listLevels_children] at below
    omega
  | none =>
    cases terms with
    | nil => rw [walkDepth_nil]; exact Nat.zero_le _
    | cons first rest =>
      have above := levels_lt_listLevels (List.mem_cons_self (a := first) (l := rest))
      rw [walkDepth_of_flat (List.cons_ne_nil _ _) followed]
      omega
termination_by sizeOf terms

theorem Within.mono {u : Term σ} {terms more : List (Term σ)} (within : u.Within terms)
    (subset : ∀ t ∈ terms, t ∈ more) : u.Within more := by
  cases within with
  | here member => exact .here (subset u member)
  | inside member below => exact .inside (subset _ member) below

theorem walk_fits_iff (terms : List (Term σ)) :
    nestingError? terms mostLevels = none ↔ walkDepth terms ≤ 5 := by
  cases terms with
  | nil =>
    rw [walkDepth_nil]
    exact ⟨fun _ => Nat.zero_le _, fun _ => rfl⟩
  | cons t rest => exact nestingError?_eq_none_iff_walkDepth (List.cons_ne_nil t rest) mostLevels

/-! ## Terms in order -/

variable [Scoping σ]

/-- A term is in order by itself, whatever is wrong with its children. -/
structure InOrder (t : Term σ) : Prop where
  name : t.name ≠ ""
  subject : t.subject.name ≠ ""
  scope : Scoping.carried σ = true → Scoping.text t.subject.scope ≠ ""
  limit : 0 ≤ t.limit
  few : t.children.length ≤ 100

/-- All terms of a tree are in order, and the walk below each of them is short. -/
def Fits (t : Term σ) : Prop := ∀ u : Term σ, u.Within [t] → u.InOrder ∧ walkDepth u.children ≤ 5

/-- With few levels the walk is short everywhere. -/
theorem fits_of_levels_le {t : Term σ} (order : ∀ u : Term σ, u.Within [t] → u.InOrder)
    (low : t.levels ≤ 5) : t.Fits := by
  intro u within
  have below := within.levels_lt
  have walk := walkDepth_le_listLevels u.children
  rw [listLevels_children] at walk
  simp only [listLevels] at below
  exact ⟨order u within, by omega⟩

end Term

theorem Attribute.violations_eq_nil_iff {σ : Type} [Scoping σ] (a : Attribute σ) :
    a.violations = [] ↔ (Scoping.carried σ = true → Scoping.text a.scope ≠ "") ∧ a.name ≠ "" := by
  rw [violations, check, Violations.check_eq_nil_iff, List.forall_mem_singleton,
    Rule.required_eq_none_iff, Scoping.check]
  split
  · rename_i carried
    simp [Violations.check_eq_nil_iff, Rule.required_eq_none_iff, carried]
  · rename_i flat
    simp [flat]

namespace Term

variable {σ : Type} [Scoping σ]

/-- One level of acceptance. -/
theorem violations_eq_nil_iff_inOrder (t : Term σ) :
    t.violations = [] ↔
      t.InOrder ∧ walkDepth t.children ≤ 5 ∧ ∀ child ∈ t.children, child.violations = [] := by
  rw [violations_eq_nil_iff, Attribute.violations_eq_nil_iff, walk_fits_iff]
  constructor
  · rintro ⟨⟨name, ⟨scope, subject⟩, limit⟩, few, short, below⟩
    exact ⟨⟨name, subject, scope, limit, few⟩, short, below⟩
  · rintro ⟨order, short, below⟩
    exact ⟨⟨order.name, ⟨order.scope, order.subject⟩, order.limit⟩, order.few, short, below⟩

/-- From one level to the next, down the whole tree. -/
theorem violations_eq_nil_iff_fits (t : Term σ) : t.violations = [] ↔ t.Fits := by
  constructor
  · intro accepted u within
    have own := within.accepted (List.forall_mem_singleton.mpr accepted)
    obtain ⟨order, short, _⟩ := u.violations_eq_nil_iff_inOrder.mp own
    exact ⟨order, short⟩
  · induction t using Term.induction with
    | node name subject limit children ih =>
      intro fits
      obtain ⟨order, short⟩ := fits _ (.here List.mem_cons_self)
      refine (violations_eq_nil_iff_inOrder _).mpr ⟨order, short, ?_⟩
      intro child member
      apply ih child member
      intro u within
      have below : u.Within children := within.mono (List.forall_mem_singleton.mpr member)
      exact fits u (.inside List.mem_cons_self below)

/-- The terms on top of a request: at least one, not too many, and each of them fits. -/
structure TopFits (terms : List (Term σ)) : Prop where
  present : 1 ≤ terms.length
  few : terms.length ≤ 100
  each : ∀ t ∈ terms, t.Fits

theorem topViolations_eq_nil_iff (terms : List (Term σ)) :
    topViolations terms = [] ↔ TopFits terms := by
  rw [← checkTop_eq, checkTop_eq_nil_iff]
  constructor
  · rintro ⟨present, few, accepted⟩
    refine ⟨List.length_pos_iff.mpr present, few, ?_⟩
    intro t member
    exact t.violations_eq_nil_iff_fits.mp (accepted t member)
  · intro fits
    refine ⟨List.length_pos_iff.mp fits.present, fits.few, ?_⟩
    intro t member
    exact t.violations_eq_nil_iff_fits.mpr (fits.each t member)

end Term

/-! ## The field of the terms -/

namespace Violations

theorem get?_check_other (violations : Violations) {wanted field : String} (apart : wanted ≠ field)
    (rules : List (Option String)) :
    (violations.check field rules).get? wanted = violations.get? wanted := by
  unfold check
  split
  · exact Table.lookup_insert_other _ _ apart
  · rfl

theorem first_mem_or_nil (parts : List Violations) : first parts ∈ parts ∨ first parts = [] := by
  cases found : parts.find? (!·.isEmpty) with
  | none =>
    have fine : first parts = [] := by rw [first, found]; rfl
    exact .inr fine
  | some part =>
    have faulty : first parts = part := by rw [first, found]; rfl
    rw [faulty]
    exact .inl (List.mem_of_find?_eq_some found)

theorem get?_first_eq_none {parts : List Violations} {name : String}
    (nowhere : ∀ part ∈ parts, part.get? name = none) : (first parts).get? name = none := by
  obtain member | fine := first_mem_or_nil parts
  · exact nowhere _ member
  · rw [fine]
    rfl

end Violations

theorem Scoping.get?_check_other {σ : Type} [Scoping σ] (violations : Violations) {wanted : String}
    (apart : wanted ≠ "scope") (scope : σ) :
    (Scoping.check violations scope).get? wanted = violations.get? wanted := by
  unfold Scoping.check
  split
  · exact violations.get?_check_other apart _
  · rfl

/-- A filter is never faulty in a field that it does not have. -/
theorem Predicate.get?_violations_aggregations {σ : Type} [Scoping σ] (p : Predicate σ) :
    p.violations.get? "aggregations" = none := by
  have checked (rules : List (Option String)) :
      Violations.get? (Violations.check (Attribute.check [] p.subject) "type" rules)
        "aggregations" = none := by
    rw [Violations.get?_check_other _ (by decide), Attribute.check,
      Violations.get?_check_other _ (by decide), Scoping.get?_check_other _ (by decide)]
    rfl
  unfold violations
  split
  · exact (Table.lookup_insert_other _ _ (by decide)).trans (checked _)
  · exact checked _

theorem GeoFilters.get?_violations_aggregations (g : GeoFilters) :
    g.violations.get? "aggregations" = Option.none := by
  rw [violations, Violations.get?_append, Violations.get?_entry_of_ne (by decide),
    Violations.get?_entry_of_ne (by decide)]
  rfl

namespace Term

variable {σ : Type} [Scoping σ]

theorem get?_of_topViolations {terms : List (Term σ)} {e : String × Violation} {rest : Violations}
    (faulty : topViolations terms = e :: rest) (more : Violations) :
    Violations.get? (e :: more) "aggregations" = some e.2 := by
  obtain ⟨name, violation⟩ := e
  obtain rfl : name = "aggregations" :=
    fst_of_mem_topViolations (faulty ▸ List.mem_cons_self (l := rest))
  simp [Violations.get?]

/-- Among the parts of a request only the terms on top are faulty under their name. -/
theorem get?_first (terms : List (Term σ)) {beside : Violations} {others : List Violations}
    (apart : ∀ part ∈ beside :: others, part.get? "aggregations" = none) :
    (Violations.first ((topViolations terms ++ beside) :: others)).get? "aggregations" =
      (topViolations terms).get? "aggregations" := by
  obtain ⟨beside_apart, others_apart⟩ := List.forall_mem_cons.mp apart
  cases faulty : topViolations terms with
  | nil =>
    exact Violations.get?_first_eq_none (List.forall_mem_cons.mpr ⟨beside_apart, others_apart⟩)
  | cons e rest =>
    have told := get?_of_topViolations faulty
    exact (told (rest ++ beside)).trans (told rest).symm

theorem get?_topViolations_eq_none_iff (terms : List (Term σ)) :
    (topViolations terms).get? "aggregations" = none ↔ TopFits terms := by
  rw [← topViolations_eq_nil_iff]
  cases faulty : topViolations terms with
  | nil => exact ⟨fun _ => rfl, fun _ => rfl⟩
  | cons e rest => simp [get?_of_topViolations faulty]

end Term

theorem Predicate.get?_aggregations_of_mem {σ : Type} [Scoping σ] {predicates : List (Predicate σ)} :
    ∀ part ∈ predicates.map Predicate.violations, part.get? "aggregations" = none := by
  intro part member
  obtain ⟨p, _, rfl⟩ := List.mem_map.mp member
  exact p.get?_violations_aggregations

theorem DeviceSummary.get?_violations (s : DeviceSummary) :
    s.violations.get? "aggregations" = (Term.topViolations s.aggregations).get? "aggregations" := by
  have parts : s.violations = _ := (Request.deviceSummary s).violations_eq_first
  rw [parts]
  apply Term.get?_first
  exact List.forall_mem_cons.mpr
    ⟨s.geo.get?_violations_aggregations, Predicate.get?_aggregations_of_mem⟩

theorem DeploymentSummary.get?_violations (s : DeploymentSummary) :
    s.violations.get? "aggregations" = (Term.topViolations s.aggregations).get? "aggregations" := by
  have parts : s.violations = _ := (Request.deploymentSummary s).violations_eq_first
  rw [parts, Request.parts, ← List.append_nil (Term.topViolations s.aggregations), Term.get?_first]
  · rw [List.append_nil]
  · exact List.forall_mem_cons.mpr ⟨rfl, Predicate.get?_aggregations_of_mem⟩

/-- A summary of devices is faulty in its terms exactly if they do not fit. -/
theorem DeviceSummary.get?_violations_eq_none_iff (s : DeviceSummary) :
    s.violations.get? "aggregations" = none ↔ Term.TopFits s.aggregations := by
  rw [get?_violations, Term.get?_topViolations_eq_none_iff]

/-- A summary of deployments is faulty in its terms exactly if they do not fit. -/
theorem DeploymentSummary.get?_violations_eq_none_iff (s : DeploymentSummary) :
    s.violations.get? "aggregations" = none ↔ Term.TopFits s.aggregations := by
  rw [get?_violations, Term.get?_topViolations_eq_none_iff]

/-- The walk is refused exactly when it is deeper than its budget. A tree is accepted exactly when
every term in it is in order and the walk below it has at most five levels, and a request is faulty
in its terms exactly if they are none, too many or not all accepted. So a tree of terms in order with
at most five levels is accepted. -/
theorem trees_accepted_exactly :
    (∀ (σ : Type) (terms : List (Term σ)) (budget : Nat), terms ≠ [] →
      (Term.nestingError? terms budget = none ↔ Term.walkDepth terms ≤ budget)) ∧
    (∀ (σ : Type) [Scoping σ] (t : Term σ), t.violations = [] ↔ t.Fits) ∧
    (∀ s : DeviceSummary,
      (s.violations.get? "aggregations" = none ↔ Term.TopFits s.aggregations) ∧
      (s.violations = [] ↔ Term.TopFits s.aggregations ∧ GeoFilters.check [] s.geo = [] ∧
        ∀ p ∈ s.filters, p.violations = [])) ∧
    (∀ s : DeploymentSummary,
      (s.violations.get? "aggregations" = none ↔ Term.TopFits s.aggregations) ∧
      (s.violations = [] ↔ Term.TopFits s.aggregations ∧ ∀ p ∈ s.filters, p.violations = [])) ∧
    ∀ (σ : Type) [Scoping σ] (t : Term σ), (∀ u : Term σ, u.Within [t] → u.InOrder) →
      t.levels ≤ 5 → t.violations = [] := by
  have top {σ : Type} [Scoping σ] (terms : List (Term σ)) :
      Term.checkTop [] terms = [] ↔ Term.TopFits terms := by
    rw [Term.checkTop_eq, Term.topViolations_eq_nil_iff]
  refine ⟨?_, ?_, ?_, ?_, ?_⟩
  · intro σ terms budget present
    exact Term.nestingError?_eq_none_iff_walkDepth present budget
  · intro σ _ t
    exact t.violations_eq_nil_iff_fits
  · intro s
    refine ⟨s.get?_violations_eq_none_iff, ?_⟩
    rw [s.violations_eq_nil_iff, top]
  · intro s
    refine ⟨s.get?_violations_eq_none_iff, ?_⟩
    rw [s.violations_eq_nil_iff, top]
  · intro σ _ t order low
    exact t.violations_eq_nil_iff_fits.mpr (Term.fits_of_levels_le order low)

/-- Five levels below a term, which is as deep as the walk may go. -/
theorem trees_accepted_exactly_trunk :
    let trunk := Term.tallest ⟨Scope.mk "inventory", "status"⟩ 0
    (trunk.children ≠ [] ∧ Term.walkDepth trunk.children = 5 ∧
      ¬ Term.nestingError? trunk.children 4 = none ∧ Term.nestingError? trunk.children 5 = none) ∧
    (∀ u : Term Scope, u.Within [trunk] → u.InOrder) ∧ trunk.levels ≤ 5 ∧ trunk.violations = [] := by
  intro trunk
  have present : trunk.children ≠ [] := List.cons_ne_nil _ _
  have walk (budget : Nat) := trees_accepted_exactly.1 Scope trunk.children budget present
  have refused : ¬ Term.nestingError? trunk.children 4 = none := nofun
  have allowed : Term.nestingError? trunk.children 5 = none := rfl
  have depth : Term.walkDepth trunk.children = 5 := by
    have := (walk 5).mp allowed
    have := mt (walk 4).mpr refused
    omega
  have fits : trunk.Fits :=
    trunk.violations_eq_nil_iff_fits.mp (Term.accepted_tallest _ rfl 0)
  have order : ∀ u : Term Scope, u.Within [trunk] → u.InOrder := fun u within => (fits u within).1
  have low : trunk.levels ≤ 5 := Nat.le_of_eq rfl
  exact ⟨⟨present, depth, refused, allowed⟩, order, low,
    trees_accepted_exactly.2.2.2.2 Scope trunk order low⟩

end FleetSearch
