import FleetSearch.Proofs.Lookups
import FleetSearch.Proofs.Wording

/-! # How violations are recorded

Violations come to be in steps, from none on, and so do those of their parts. Under a field stands
what the last step that found something there has found; steps that find nothing leave all as it is.
So no violation gets lost behind a check that passes, no part is told of without something wrong in
it, and steps on different fields may be taken in either order. What is found in requests is
recorded in this way. -/
namespace FleetSearch.Violations

/-- What can be done to violations. A part is fine, or its check fails with what steps of its own
have recorded, which may be nothing. -/
inductive Step where
  | add (field message : String)
  | check (field : String) (rules : List (Option String))
  | nest (field : String) (part : Except (List Step) Unit)

mutual

def Step.apply (found : Violations) : Step → Violations
  | .add field message => found.add field message
  | .check field rules => found.check field rules
  | .nest field (.ok ()) => found.nestResult field (.ok ())
  | .nest field (.error steps) => found.nestResult field (.error (runFrom [] steps))

def runFrom (found : Violations) : List Step → Violations
  | [] => found
  | x :: rest => runFrom (x.apply found) rest

end

def run (steps : List Step) : Violations := runFrom [] steps

theorem runFrom_append (found : Violations) (before after : List Step) :
    runFrom found (before ++ after) = runFrom (runFrom found before) after := by
  induction before generalizing found with
  | nil => rfl
  | cons x before ih => exact ih (x.apply found)

theorem run_append_singleton (steps : List Step) (x : Step) :
    run (steps ++ [x]) = x.apply (run steps) := runFrom_append [] steps [x]

namespace Step

def field : Step → String
  | add field _ => field
  | check field _ => field
  | nest field _ => field

/-- A step has an effect if it adds a message, if a rule of it fails, or if it is about a part in
which something is wrong. -/
def Effective : Step → Prop
  | add _ _ => True
  | check _ rules => ∃ rule ∈ rules, rule ≠ none
  | nest _ (.ok ()) => False
  | nest _ (.error steps) => run steps ≠ []

instance : DecidablePred Effective
  | add _ _ => isTrue trivial
  | check _ rules => inferInstanceAs (Decidable (∃ rule ∈ rules, rule ≠ none))
  | nest _ (.ok ()) => isFalse id
  | nest _ (.error steps) => inferInstanceAs (Decidable (run steps ≠ []))

/-- What a step finds: its message, what the first rule to fail says, or what is wrong in a part. -/
inductive Finds : Step → Violation → Prop where
  | add (field message : String) : Finds (add field message) (.message message)
  | check {before : List (Option String)} (field message : String) (after : List (Option String)) :
    (∀ rule ∈ before, rule = none) →
    Finds (check field (before ++ some message :: after)) (.message message)
  | nest {steps : List Step} (field : String) : run steps ≠ [] →
    Finds (nest field (.error steps)) (.nested (run steps))

theorem effective_iff_exists_finds (x : Step) : x.Effective ↔ ∃ violation, x.Finds violation := by
  cases x with
  | add field message => exact iff_of_true trivial ⟨_, .add field message⟩
  | check field rules =>
    constructor
    · rintro ⟨rule, member, fails⟩
      cases first : rules.findSome? id with
      | none => exact absurd (List.findSome?_eq_none_iff.mp first rule member) fails
      | some message =>
        obtain ⟨before, _, after, rfl, rfl, hold⟩ := List.findSome?_eq_some_iff.mp first
        exact ⟨_, .check field message after hold⟩
    · rintro ⟨_, found⟩
      cases found with
      | check _ message => exact ⟨some message, by simp, nofun⟩
  | nest field part =>
    cases part with
    | ok => exact iff_of_false id (fun ⟨_, found⟩ => nomatch found)
    | error steps =>
      constructor
      · intro faulty
        exact ⟨_, .nest field faulty⟩
      · rintro ⟨_, found⟩
        cases found with
        | nest _ faulty => exact faulty

/-! ## What a step does -/

/-- What a step finds is put under its field. -/
theorem Finds.apply {x : Step} {violation : Violation} (finds : x.Finds violation)
    (found : Violations) : x.apply found = Table.insert found x.field violation := by
  cases finds with
  | add => rfl
  | @check before field message after hold =>
    have first : (before ++ some message :: after).findSome? id = some message :=
      List.findSome?_eq_some_iff.mpr ⟨before, _, after, rfl, rfl, hold⟩
    rw [Step.apply, Violations.check, first]
    rfl
  | @nest steps field faulty =>
    change (found.nest field (run steps)) = _
    cases told : run steps with
    | nil => exact absurd told faulty
    | cons => rfl

/-- A step without an effect changes nothing. -/
theorem apply_of_not_effective {x : Step} (idle : ¬ x.Effective) (found : Violations) :
    x.apply found = found := by
  cases x with
  | add => exact absurd trivial idle
  | check field rules =>
    have hold : rules.findSome? id = none := by
      rw [List.findSome?_eq_none_iff]
      intro rule member
      by_contra fails
      exact idle ⟨rule, member, fails⟩
    rw [Step.apply, Violations.check, hold]
  | nest field part =>
    cases part with
    | ok => rfl
    | error steps =>
      have none : run steps = [] := not_not.mp idle
      change found.nest field (run steps) = found
      rw [none]
      rfl

theorem apply_cases (x : Step) (found : Violations) :
    (∃ violation, x.Finds violation ∧ x.apply found = Table.insert found x.field violation) ∨
      ¬ x.Effective ∧ x.apply found = found := by
  by_cases effective : x.Effective
  · obtain ⟨violation, finds⟩ := x.effective_iff_exists_finds.mp effective
    exact .inl ⟨violation, finds, finds.apply found⟩
  · exact .inr ⟨effective, apply_of_not_effective effective found⟩

theorem apply_ordered (x : Step) {found : Violations} (ordered : Table.Ordered found) :
    Table.Ordered (x.apply found) := by
  obtain ⟨violation, _, same⟩ | ⟨_, same⟩ := x.apply_cases found
  · rw [same]
    exact Table.insert_ordered ordered x.field violation
  · rw [same]
    exact ordered

/-- A field keeps what stands under it as long as nothing is found there. -/
theorem get?_apply_of_idle {x : Step} {field : String} (idle : x.field = field → ¬ x.Effective)
    (found : Violations) : (x.apply found).get? field = found.get? field := by
  obtain ⟨violation, finds, same⟩ | ⟨_, same⟩ := x.apply_cases found
  · have effective : x.Effective := x.effective_iff_exists_finds.mpr ⟨violation, finds⟩
    have apart : field ≠ x.field := fun here => idle here.symm effective
    rw [same]
    exact Table.lookup_insert_other found violation apart
  · rw [same]

/-- Two steps on different fields may be taken in either order. -/
theorem apply_comm {x y : Step} (apart : x.field ≠ y.field) {found : Violations}
    (ordered : Table.Ordered found) : y.apply (x.apply found) = x.apply (y.apply found) := by
  -- Only where both find something there are two entries to put.
  by_cases first : x.Effective
  · by_cases second : y.Effective
    · obtain ⟨violation, finds⟩ := x.effective_iff_exists_finds.mp first
      obtain ⟨violation', finds'⟩ := y.effective_iff_exists_finds.mp second
      rw [finds.apply, finds'.apply, finds'.apply, finds.apply]
      exact ordered.insert_comm apart violation violation'
    · rw [apply_of_not_effective second, apply_of_not_effective second]
  · rw [apply_of_not_effective first, apply_of_not_effective first]

end Step

/-! ## What a run does -/

theorem runFrom_ordered {found : Violations} (ordered : Table.Ordered found) (steps : List Step) :
    Table.Ordered (runFrom found steps) := by
  induction steps generalizing found with
  | nil => exact ordered
  | cons x rest ih => exact ih (x.apply_ordered ordered)

theorem run_ordered (steps : List Step) : Table.Ordered (run steps) :=
  runFrom_ordered .nil steps

theorem run_swap (before after : List Step) {x y : Step} (apart : x.field ≠ y.field) :
    run (before ++ x :: y :: after) = run (before ++ y :: x :: after) := by
  have ordered : Table.Ordered (runFrom [] before) := run_ordered before
  simp only [run, runFrom_append, runFrom, Step.apply_comm apart ordered]

theorem get?_runFrom_of_idle {steps : List Step} {field : String}
    (idle : ∀ x ∈ steps, x.field = field → ¬ x.Effective) (found : Violations) :
    (runFrom found steps).get? field = found.get? field := by
  induction steps generalizing found with
  | nil => rfl
  | cons x rest ih =>
    obtain ⟨first, others⟩ := List.forall_mem_cons.mp idle
    exact (ih others (x.apply found)).trans (Step.get?_apply_of_idle first found)

/-- What the last step with an effect on a field finds. -/
def LastFinds (steps : List Step) (field : String) (violation : Violation) : Prop :=
  ∃ before x after, steps = before ++ x :: after ∧ x.field = field ∧ x.Finds violation ∧
    ∀ y ∈ after, y.field = field → ¬ y.Effective

theorem LastFinds.get?_run {steps : List Step} {field : String} {violation : Violation}
    (last : LastFinds steps field violation) : (run steps).get? field = some violation := by
  obtain ⟨before, x, after, rfl, rfl, finds, idle⟩ := last
  rw [run, runFrom_append, runFrom, get?_runFrom_of_idle idle, finds.apply]
  exact Table.lookup_insert_self _ _ _

theorem exists_lastFinds {steps : List Step} {field : String}
    (effect : ∃ x ∈ steps, x.field = field ∧ x.Effective) :
    ∃ violation, LastFinds steps field violation := by
  induction steps with
  | nil => simp at effect
  | cons x rest ih =>
    -- The last one is among the later steps, if there is one, and else it is the first step.
    by_cases later : ∃ y ∈ rest, y.field = field ∧ y.Effective
    · obtain ⟨violation, before, y, after, rfl, last⟩ := ih later
      exact ⟨violation, x :: before, y, after, rfl, last⟩
    · obtain ⟨y, member, here, effective⟩ := effect
      obtain rfl | member := List.mem_cons.mp member
      · obtain ⟨violation, finds⟩ := y.effective_iff_exists_finds.mp effective
        refine ⟨violation, [], y, rest, rfl, here, finds, ?_⟩
        intro z member same effective
        exact later ⟨z, member, same, effective⟩
      · exact absurd ⟨y, member, here, effective⟩ later

theorem get?_run_eq_none_iff (steps : List Step) (field : String) :
    (run steps).get? field = none ↔ ∀ x ∈ steps, x.field = field → ¬ x.Effective := by
  constructor
  · intro free x member here effective
    obtain ⟨violation, last⟩ := exists_lastFinds ⟨x, member, here, effective⟩
    rw [last.get?_run] at free
    cases free
  · intro idle
    exact get?_runFrom_of_idle idle []

theorem get?_run_eq_some_iff (steps : List Step) (field : String) (violation : Violation) :
    (run steps).get? field = some violation ↔ LastFinds steps field violation := by
  constructor
  · intro told
    have effect : ∃ x ∈ steps, x.field = field ∧ x.Effective := by
      by_contra idle
      push Not at idle
      rw [(get?_run_eq_none_iff steps field).mpr idle] at told
      cases told
    obtain ⟨violation', last⟩ := exists_lastFinds effect
    rw [last.get?_run] at told
    cases told
    exact last
  · exact LastFinds.get?_run

theorem mem_fields_run_iff (steps : List Step) (field : String) :
    field ∈ (run steps).map Prod.fst ↔ ∃ x ∈ steps, x.field = field ∧ x.Effective := by
  have free_iff := get?_run_eq_none_iff steps field
  rw [get?, Table.lookup_eq_none_iff] at free_iff
  rw [← not_iff_not, free_iff]
  push Not
  exact Iff.rfl

theorem run_eq_nil_iff (steps : List Step) : run steps = [] ↔ ∀ x ∈ steps, ¬ x.Effective := by
  constructor
  · intro none x member effective
    have told := (mem_fields_run_iff steps x.field).mpr ⟨x, member, rfl, effective⟩
    rw [none] at told
    cases told
  · intro idle
    rw [← List.map_eq_nil_iff, List.eq_nil_iff_forall_not_mem]
    intro field told
    obtain ⟨x, member, _, effective⟩ := (mem_fields_run_iff steps field).mp told
    exact idle x member effective

theorem length_run (steps : List Step) :
    (run steps).length = ((steps.filter (·.Effective)).map Step.field).toFinset.card := by
  apply (run_ordered steps).length_eq_card
  intro field
  rw [mem_fields_run_iff, List.mem_map]
  constructor
  · rintro ⟨x, member, here, effective⟩
    exact ⟨x, by simp [member, effective], here⟩
  · rintro ⟨x, kept, here⟩
    obtain ⟨member, effective⟩ := List.mem_filter.mp kept
    exact ⟨x, member, here, of_decide_eq_true effective⟩

/-! ## Parts -/

/-- A part stands under a field of the violations, or under one of a part of theirs. -/
inductive Part (inner : Violations) : Violations → Prop where
  | here {violations : Violations} {field : String} :
    (field, .nested inner) ∈ violations → Part inner violations
  | inside {violations middle : Violations} {field : String} :
    (field, .nested middle) ∈ violations → Part inner middle → Part inner violations

/-- Every part tells of something. -/
def Filled (violations : Violations) : Prop := ∀ inner, Part inner violations → inner ≠ []

theorem Filled.nil : Filled [] := by
  intro inner part
  cases part with
  | here member => cases member
  | inside member _ => cases member

theorem Filled.insert {found : Violations} (filled : Filled found) (field : String)
    {violation : Violation}
    (part : ∀ inner, violation = .nested inner → inner ≠ [] ∧ Filled inner) :
    Filled (Table.insert found field violation) := by
  intro inner deep
  cases deep with
  | here member =>
    obtain same | member := Table.mem_of_mem_insert member
    · exact (part inner (Prod.mk.inj same).2.symm).1
    · exact filled inner (.here member)
  | @inside _ middle _ member deep =>
    obtain same | member := Table.mem_of_mem_insert member
    · exact (part middle (Prod.mk.inj same).2.symm).2 inner deep
    · exact filled inner (.inside member deep)

theorem Step.apply_filled {x : Step} {found : Violations} (filled : Filled found)
    (part : ∀ inner, x.Finds (.nested inner) → inner ≠ [] ∧ Filled inner) :
    Filled (x.apply found) := by
  obtain ⟨violation, finds, same⟩ | ⟨_, same⟩ := x.apply_cases found
  · rw [same]
    apply filled.insert x.field
    rintro inner rfl
    exact part inner finds
  · rw [same]
    exact filled

/- A part is recorded by steps of its own, so the induction is on the steps of all depths at once. -/
mutual

theorem Step.filled_of_finds : (x : Step) → ∀ inner, x.Finds (.nested inner) →
    inner ≠ [] ∧ Filled inner
  | .nest _ (.error steps), _, .nest _ faulty => ⟨faulty, runFrom_filled steps .nil⟩

theorem runFrom_filled : (steps : List Step) → ∀ {found : Violations}, Filled found →
    Filled (runFrom found steps)
  | [], _, filled => filled
  | x :: rest, _, filled => runFrom_filled rest (Step.apply_filled filled x.filled_of_finds)

end

/-! ## What is found in requests -/

theorem Gathered.exists_run {found : Violations} (gathered : found.Gathered) :
    ∃ steps, run steps = found := by
  induction gathered with
  | nil => exact ⟨[], rfl⟩
  | @add _ field message _ _ _ ih =>
    obtain ⟨steps, rfl⟩ := ih
    exact ⟨steps ++ [.add field message], run_append_singleton steps _⟩
  | @nest _ _ field _ _ _ ih part =>
    obtain ⟨steps, rfl⟩ := ih
    obtain ⟨inside, rfl⟩ := part
    exact ⟨steps ++ [.nest field (.error inside)], run_append_singleton steps _⟩

/-- Violations record exactly what was found last. Under a field stands what the last step with an
effect on it has found, and nothing where there was none; steps without an effect change nothing; as
many violations are told as there are fields with an effect; all is fine exactly if no step had an
effect; no part is empty, however deep it stands; and neighbouring steps on different fields may be
swapped. What is found in requests and in their parts is recorded in such steps. -/
theorem last_failures_recorded :
    (∀ (steps : List Step) (field : String) (violation : Violation),
      (run steps).get? field = some violation ↔ LastFinds steps field violation) ∧
    (∀ (steps : List Step) (field : String),
      (run steps).get? field = none ↔ ∀ x ∈ steps, x.field = field → ¬ x.Effective) ∧
    (∀ (x : Step) (found : Violations), ¬ x.Effective → x.apply found = found) ∧
    (∀ steps : List Step, (run steps).length =
      ((steps.filter (·.Effective)).map Step.field).toFinset.card) ∧
    (∀ steps : List Step, ((run steps).toResult = .ok () ↔ ∀ x ∈ steps, ¬ x.Effective) ∧
      ((run steps).toResult = .error (run steps) ↔ ∃ x ∈ steps, x.Effective)) ∧
    (∀ (steps : List Step) (inner : Violations), Part inner (run steps) → inner ≠ []) ∧
    (∀ (before after : List Step) (x y : Step), x.field ≠ y.field →
      run (before ++ x :: y :: after) = run (before ++ y :: x :: after) ∧
      (run (before ++ x :: y :: after)).text = (run (before ++ y :: x :: after)).text) ∧
    ∀ violations, Found violations → ∃ steps, run steps = violations := by
  refine ⟨get?_run_eq_some_iff, get?_run_eq_none_iff, ?idle, length_run, ?result, ?parts, ?swap,
    ?requests⟩
  case idle =>
    intro x found idle
    exact Step.apply_of_not_effective idle found
  case result =>
    intro steps
    rw [toResult_eq_ok_iff, toResult_eq_error_iff, ne_eq, run_eq_nil_iff]
    refine ⟨Iff.rfl, ?_⟩
    push Not
    exact Iff.rfl
  case parts =>
    intro steps
    exact runFrom_filled steps .nil
  case swap =>
    intro before after x y apart
    have same := run_swap before after apart
    exact ⟨same, congrArg text same⟩
  case requests =>
    intro violations found
    exact found.gathered.exists_run

/-- A circle that is told of as missing, then as one with a wrong place, and is looked at twice more
without anything wrong in it. -/
theorem last_failures_recorded_again :
    let place : Violations := [("lat", .message "must be no less than -90")]
    let circle : Violations := [("location", .nested place)]
    let missing : Step := .add "geo_distance" "cannot be blank"
    let order : Step := .check "order" [some "cannot be blank", some "must be a valid value"]
    let wrong : Step := .nest "geo_distance" (.error [.nest "location"
      (.error [.check "lat" [none, some "must be no less than -90"]])])
    let idle : Step := .nest "geo_distance" (.error [.check "distance" [none]])
    let rest : List Step := [wrong, idle, .nest "geo_distance" (.ok ())]
    let found : Violations :=
      [("geo_distance", .nested circle), ("order", .message "cannot be blank")]
    run (missing :: order :: rest) = found ∧
    LastFinds (missing :: order :: rest) "geo_distance" (.nested circle) ∧
    (¬ idle.Effective ∧ idle.apply found = found) ∧
    (Part place found ∧ place ≠ []) ∧
    (missing.field ≠ order.field ∧ run (order :: missing :: rest) = found) ∧
    let summary : DeviceSummary := ⟨[], [], .none⟩
    Found summary.violations ∧ ∃ steps, run steps = summary.violations := by
  intro place circle missing order wrong idle rest found
  obtain ⟨last, _, unchanged, _, _, parts, swap, requests⟩ := last_failures_recorded
  have recorded : run (missing :: order :: rest) = found := rfl
  have ineffective : ¬ idle.Effective := by decide
  have part : Part place found := .inside List.mem_cons_self (.here List.mem_cons_self)
  have apart : missing.field ≠ order.field := by decide
  refine ⟨recorded, (last _ _ _).mp rfl, ?_, ?_, ?_, ?_⟩
  · exact ⟨ineffective, unchanged idle found ineffective⟩
  · exact ⟨part, parts _ place (recorded ▸ part)⟩
  · exact ⟨apart, (swap [] rest missing order apart).1.symm.trans recorded⟩
  · intro summary
    have told : Found summary.violations := .request (.deviceSummary summary)
    exact ⟨told, requests _ told⟩

end FleetSearch.Violations
