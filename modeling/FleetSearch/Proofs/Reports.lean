import FleetSearch.Proofs.Faults
import Mathlib.Data.Set.Function

/-! # Reports

What is told of a tree of terms is complete and exact: the messages match the fields that fail one to
one. Requests tell of their terms in the same way, each term on top under its index, next to what
else is wrong with them. -/
namespace FleetSearch

/-- The paths to what is wrong with the terms of a request. -/
def AboutTerms (path : List String) : Prop := path.head? = some "aggregations"

namespace Term

variable {σ : Type}

/-- A term on top of a request, or one that is reached from there. -/
inductive TopReached (terms : List (Term σ)) : List Nat → Term σ → Prop where
  | inside {t n : Term σ} {i : Nat} {indices : List Nat} : terms.length ≤ 100 →
    terms[i]? = some t → t.Reached indices n → TopReached terms (i :: indices) n

theorem TopReached.unique {terms : List (Term σ)} {n m : Term σ} {indices : List Nat}
    (first : TopReached terms indices n) (second : TopReached terms indices m) : n = m := by
  obtain ⟨_, placed, first⟩ := first
  cases second with
  | inside _ placed' second =>
    rw [placed] at placed'
    cases placed'
    exact first.unique second

theorem TopReached.aboutTerms {terms : List (Term σ)} {indices : List Nat} {n : Term σ}
    (reached : TopReached terms indices n) (field : String) :
    AboutTerms (fieldPath indices field) := by
  cases reached with
  | inside _ _ _ => rfl

variable [Scoping σ]

/-- The list of the terms on top fails, or a field of a term below it. -/
inductive TopFails (terms : List (Term σ)) : List Nat → String → String → Prop where
  | absent : terms = [] → TopFails terms [] "aggregations" "cannot be blank"
  | many : 100 < terms.length →
    TopFails terms [] "aggregations" "the length must be between 1 and 100"
  | inside {indices : List Nat} {n : Term σ} {field text : String} : TopReached terms indices n →
    n.Faulty field text → TopFails terms indices field text

theorem TopReached.topFails_iff {terms : List (Term σ)} {n : Term σ} {indices : List Nat}
    (reached : TopReached terms indices n) (field text : String) :
    TopFails terms indices field text ↔ n.Faulty field text := by
  constructor
  · intro fails
    cases fails with
    | absent _ => cases reached
    | many _ => cases reached
    | inside reached' faulty => rwa [reached.unique reached']
  · intro faulty
    exact .inside reached faulty

theorem topFails_nil_iff (terms : List (Term σ)) (field text : String) :
    TopFails terms [] field text ↔ field = "aggregations" ∧
      ((terms = [] ∧ text = "cannot be blank") ∨
        (100 < terms.length ∧ text = "the length must be between 1 and 100")) := by
  constructor
  · intro fails
    cases fails with
    | absent none => exact ⟨rfl, .inl ⟨none, rfl⟩⟩
    | many many => exact ⟨rfl, .inr ⟨many, rfl⟩⟩
    | inside reached _ => cases reached
  · rintro ⟨rfl, ⟨none, rfl⟩ | ⟨many, rfl⟩⟩
    · exact .absent none
    · exact .many many

theorem topFails_cons_iff (terms : List (Term σ)) (i : Nat) (indices : List Nat)
    (field text : String) : TopFails terms (i :: indices) field text ↔
      terms.length ≤ 100 ∧ ∃ t, terms[i]? = some t ∧ t.Fails indices field text := by
  constructor
  · intro fails
    cases fails with
    | inside reached faulty =>
      cases reached with
      | inside few placed reached => exact ⟨few, _, placed, _, reached, faulty⟩
  · rintro ⟨few, t, placed, n, reached, faulty⟩
    exact .inside (.inside few placed reached) faulty

theorem TopFails.aboutTerms {terms : List (Term σ)} {indices : List Nat} {field text : String}
    (fails : TopFails terms indices field text) : AboutTerms (fieldPath indices field) := by
  cases indices with
  | nil =>
    obtain ⟨rfl, _⟩ := (topFails_nil_iff terms field text).mp fails
    rfl
  | cons i indices => rfl

/-- The list of the terms on top is itself told of, or a path goes on in one of them. -/
theorem at?_topViolations_cons_iff (terms : List (Term σ)) (path : List String) (text : String) :
    (topViolations terms).at? ("aggregations" :: path) = some (.message text) ↔
      (TopFails terms [] "aggregations" text ∧ path = []) ∨
        terms.length ≤ 100 ∧ ∃ (i : Nat) (t : Term σ) (rest : List String), terms[i]? = some t ∧
          path = toString i :: rest ∧ t.violations.at? rest = some (.message text) := by
  rw [← checkTop_eq, topFails_nil_iff, ← Violations.at?_each_eq_message_iff]
  by_cases none : terms = []
  · subst none
    have told : Violations.get? (checkTop [] ([] : List (Term σ))) "aggregations" =
        some (.message "cannot be blank") := rfl
    have nowhere : ¬ (Violations.each violations ([] : List (Term σ))).at? path =
        some (.message text) := fun found => Violations.ne_nil_of_at?_eq_message found rfl
    rw [Violations.at?_cons_of_message told]
    simp [nowhere, eq_comm, and_comm]
  · have positive : 1 ≤ terms.length := List.length_pos_iff.mpr none
    have holds : [Rule.length terms.length 1 mostTerms].findSome? id = .none ↔
        terms.length ≤ 100 := by
      rw [List.findSome?_eq_none_iff, List.forall_mem_singleton, id_eq, Rule.length_eq_none_iff,
        and_iff_right positive]
      rfl
    have fails : [Rule.length terms.length 1 mostTerms].findSome? id = some text ↔
        100 < terms.length ∧ text = "the length must be between 1 and 100" := by
      rw [Violations.findSome?_singleton_eq_some_iff, Rule.length_eq_some_iff,
        and_iff_right positive, Nat.not_le]
      rfl
    have empty : ¬ Violations.at? [] ("aggregations" :: path) = some (.message text) := nofun
    rw [checkTop, if_neg (by simpa using none), Violations.at?_checkList_eq_message_iff rfl, holds,
      fails]
    simp [none, empty]

theorem at?_topViolations_eq_message_iff (terms : List (Term σ)) (path : List String)
    (text : String) : (topViolations terms).at? ("aggregations" :: path) = some (.message text) ↔
      ∃ indices field, TopFails terms indices field text ∧
        "aggregations" :: path = fieldPath indices field := by
  rw [at?_topViolations_cons_iff]
  constructor
  · rintro (⟨fails, rfl⟩ | ⟨few, i, t, rest, placed, rfl, found⟩)
    · exact ⟨[], _, fails, rfl⟩
    · obtain ⟨indices, field, fails, rfl⟩ := (t.at?_violations_eq_message_iff rest text).mp found
      exact ⟨i :: indices, field, (topFails_cons_iff _ _ _ _ _).mpr ⟨few, t, placed, fails⟩, rfl⟩
  · rintro ⟨indices, field, fails, same⟩
    cases indices with
    | nil =>
      obtain ⟨rfl, rfl⟩ := List.cons.inj same
      exact .inl ⟨fails, rfl⟩
    | cons i indices =>
      obtain ⟨_, rfl⟩ := List.cons.inj same
      obtain ⟨few, t, placed, fails⟩ := (topFails_cons_iff _ _ _ _ _).mp fails
      have found := (t.at?_violations_eq_message_iff _ text).mpr ⟨indices, field, fails, rfl⟩
      exact .inr ⟨few, i, t, _, placed, rfl, found⟩

end Term

/-! ## Reports -/

/-- Among the paths in question, violations tell exactly of what fails: at the end of the path of a
field stands what is wrong with it, and a message stands nowhere else. Below terms that are too many
or too deep nothing is found. So the messages match the failing fields one to one. -/
structure Violations.Reports (found : Violations) (asked : List String → Prop)
    (fails : List Nat → String → String → Prop) : Prop where
  told : ∀ indices field, asked (fieldPath indices field) → ∀ text,
    found.at? (fieldPath indices field) = some (.message text) ↔ fails indices field text
  nothingElse : ∀ path text, asked path → found.at? path = some (.message text) →
    ∃ indices field, path = fieldPath indices field
  closed : ∀ indices text, fails indices "aggregations" text → ∀ further, further ≠ [] →
    found.at? (fieldPath indices "aggregations" ++ further) = none
  listed : ∀ path text,
    (path, text) ∈ found.messages ↔ found.at? path = some (.message text)
  once : (found.messages.map Prod.fst).Nodup
  paired : Set.BijOn (fun place : List Nat × String => fieldPath place.1 place.2)
    {place | ∃ text, fails place.1 place.2 text}
    {path | asked path ∧ ∃ text, (path, text) ∈ found.messages}

theorem Violations.reports_of {found : Violations} (orderly : found.Orderly)
    {asked : List String → Prop} {fails : List Nat → String → String → Prop}
    (inQuestion : ∀ indices field text, fails indices field text → asked (fieldPath indices field))
    (found_iff : ∀ path text, asked path → (found.at? path = some (.message text) ↔
      ∃ indices field, fails indices field text ∧ path = fieldPath indices field)) :
    found.Reports asked fails := by
  have told : ∀ indices field, asked (fieldPath indices field) → ∀ text,
      found.at? (fieldPath indices field) = some (.message text) ↔ fails indices field text := by
    intro indices field asks text
    rw [found_iff _ text asks]
    constructor
    · rintro ⟨others, other, fails, same⟩
      obtain ⟨rfl, rfl⟩ := fieldPath_inj same
      exact fails
    · intro fails
      exact ⟨indices, field, fails, rfl⟩
  have reached {indices : List Nat} {field text : String} (fails : fails indices field text) :
      found.at? (fieldPath indices field) = some (.message text) :=
    (told indices field (inQuestion _ _ _ fails) text).mpr fails
  refine ⟨told, ?_, ?_, orderly.mem_messages_iff, orderly.nodup_messages, ?_, ?_, ?_⟩
  · intro path text asks here
    obtain ⟨indices, field, _, same⟩ := (found_iff path text asks).mp here
    exact ⟨indices, field, same⟩
  · intro indices text fails further goesOn
    exact at?_append_of_message (reached fails) goesOn
  · rintro ⟨indices, field⟩ ⟨text, fails⟩
    have listed := (orderly.mem_messages_iff _ text).mpr (reached fails)
    exact ⟨inQuestion _ _ _ fails, text, listed⟩
  · rintro ⟨indices, field⟩ _ ⟨others, other⟩ _ same
    obtain ⟨rfl, rfl⟩ := fieldPath_inj same
    rfl
  · rintro path ⟨asks, text, listed⟩
    have here := (orderly.mem_messages_iff path text).mp listed
    obtain ⟨indices, field, fails, same⟩ := (found_iff path text asks).mp here
    exact ⟨(indices, field), ⟨text, fails⟩, same.symm⟩

theorem Term.violations_reports {σ : Type} [Scoping σ] (t : Term σ) :
    t.violations.Reports (fun _ => True) t.Fails := by
  apply Violations.reports_of t.gathered_violations.orderly
  · intro _ _ _ _
    trivial
  · intro path text _
    exact t.at?_violations_eq_message_iff path text

/-- Violations that tell of the terms on top under their name report them. -/
theorem Term.reports_of_get? {σ : Type} [Scoping σ] {terms : List (Term σ)} {found : Violations}
    (orderly : found.Orderly)
    (same : found.get? "aggregations" = (topViolations terms).get? "aggregations") :
    found.Reports AboutTerms (TopFails terms) := by
  apply Violations.reports_of orderly
  · intro indices field text fails
    exact fails.aboutTerms
  · intro path text asks
    cases path with
    | nil => cases asks
    | cons field path =>
      obtain rfl := Option.some.inj asks
      rw [Violations.at?_cons_congr same]
      exact at?_topViolations_eq_message_iff terms path text

theorem DeviceSummary.violations_reports (s : DeviceSummary) :
    s.violations.Reports AboutTerms (Term.TopFails s.aggregations) :=
  Term.reports_of_get? (Request.deviceSummary s).gathered_violations.orderly s.get?_violations

theorem DeploymentSummary.violations_reports (s : DeploymentSummary) :
    s.violations.Reports AboutTerms (Term.TopFails s.aggregations) :=
  Term.reports_of_get? (Request.deploymentSummary s).gathered_violations.orderly s.get?_violations

theorem Violations.Reports.told_iff {σ : Type} [Scoping σ] {terms : List (Term σ)}
    {found : Violations} (reports : found.Reports AboutTerms (Term.TopFails terms))
    {indices : List Nat} {n : Term σ} (reached : Term.TopReached terms indices n)
    (field text : String) :
    found.at? (fieldPath indices field) = some (.message text) ↔ n.Faulty field text := by
  have about := reached.aboutTerms field
  exact (reports.told indices field about text).trans (reached.topFails_iff field text)

/-- What is wrong with a tree of terms is told completely and exactly: in a term that is reached, a
message stands under a field exactly if the field fails, and says what its first rule to fail says.
The messages match the failing fields of reached terms one to one, and below a term with too many or
too deep ones nothing is told. The terms on top of a request are told of in the same way. -/
theorem faults_reported :
    (∀ (σ : Type) [Scoping σ] (t : Term σ),
      t.violations.Reports (fun _ => True) t.Fails ∧
      ∀ indices n, t.Reached indices n → ∀ field text,
        t.violations.at? (fieldPath indices field) = some (.message text) ↔
          n.Faulty field text) ∧
    (∀ s : DeviceSummary,
      s.violations.Reports AboutTerms (Term.TopFails s.aggregations) ∧
      ∀ indices n, Term.TopReached s.aggregations indices n → ∀ field text,
        s.violations.at? (fieldPath indices field) = some (.message text) ↔
          n.Faulty field text) ∧
    ∀ s : DeploymentSummary,
      s.violations.Reports AboutTerms (Term.TopFails s.aggregations) ∧
      ∀ indices n, Term.TopReached s.aggregations indices n → ∀ field text,
        s.violations.at? (fieldPath indices field) = some (.message text) ↔
          n.Faulty field text := by
  refine ⟨?_, ?_, ?_⟩
  · intro σ _ t
    refine ⟨t.violations_reports, ?_⟩
    intro indices n reached field text
    rw [t.violations_reports.told indices field trivial, reached.fails_iff]
  · intro s
    refine ⟨s.violations_reports, ?_⟩
    intro indices n reached
    exact s.violations_reports.told_iff reached
  · intro s
    refine ⟨s.violations_reports, ?_⟩
    intro indices n reached
    exact s.violations_reports.told_iff reached

/-- A term with a sound child, a nameless one and one with too many levels below it, the lowest of
which would be faulty, too. -/
def Term.crooked : Term Scope :=
  let subject : Attribute Scope := ⟨⟨"inventory"⟩, "status"⟩
  let nameless := mk "" subject (-1) []
  mk "root" subject 0 [twig subject, nameless, mk "high" subject 0 (tower subject [nameless] 5)]

theorem faults_reported_crooked :
    let subject : Attribute Scope := ⟨⟨"inventory"⟩, "status"⟩
    let nameless := Term.mk "" subject (-1) []
    (Term.crooked.Reached [1] nameless ∧
      Term.crooked.violations.at? ["aggregations", "1", "name"] =
        some (.message "cannot be blank") ∧
      Term.crooked.violations.at? ["aggregations", "1", "limit"] =
        some (.message "must be no less than 0")) ∧
    (Term.crooked.Fails [2] "aggregations" "too many nested aggregations, limit is 5" ∧
      Term.crooked.violations.at? ["aggregations", "2", "aggregations", "0"] = none) ∧
    Term.TopReached (DeviceSummary.ofTerm .crooked).aggregations [0, 1] nameless ∧
      (DeviceSummary.ofTerm .crooked).violations.at?
        ["aggregations", "0", "aggregations", "1", "name"] = some (.message "cannot be blank") := by
  intro subject nameless
  have shallow : Term.walkDepth Term.crooked.children ≤ 5 := (Term.walk_fits_iff _).mp rfl
  have opened : Term.crooked.Open := ⟨by decide, shallow⟩
  have reached : Term.crooked.Reached [1] nameless := .inside opened rfl (.here nameless)
  have top : Term.TopReached (DeviceSummary.ofTerm .crooked).aggregations [0, 1] nameless :=
    .inside (by decide) rfl reached
  obtain ⟨reports, told⟩ := faults_reported.1 Scope .crooked
  have deep : Term.crooked.Fails [2] "aggregations" "too many nested aggregations, limit is 5" := by
    have long := ((Term.nestingError?_eq_some_iff (Term.tower subject [nameless] 5) _).mp rfl).1
    exact ⟨_, .inside opened rfl (.here _), .deep (by decide) long⟩
  refine ⟨⟨reached, ?_, ?_⟩, ⟨deep, ?_⟩, top, ?_⟩
  · exact (told [1] nameless reached "name" _).mpr (.nameless rfl)
  · exact (told [1] nameless reached "limit" _).mpr (.negative (by decide))
  · exact reports.closed [2] _ deep ["0"] (List.cons_ne_nil _ _)
  · exact ((faults_reported.2.1 _).2 [0, 1] nameless top "name" _).mpr (.nameless rfl)

end FleetSearch
