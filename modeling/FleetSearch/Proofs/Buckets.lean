import FleetSearch.Proofs.Acceptance
import FleetSearch.Proofs.Compiled
import FleetSearch.Proofs.Document
import FleetSearch.Proofs.Written

/-! # Buckets

A summary sums up what a search would list. It is refused as the search is, and otherwise it has the
condition of the search on the same index, and asks for buckets instead of documents. -/
namespace FleetSearch

theorem Aggregation.membersJson_ne_nil {aggregations : Aggregations} (present : aggregations ≠ []) :
    Aggregation.membersJson aggregations ≠ [] := by
  cases aggregations with
  | nil => exact absurd rfl present
  | cons entry rest => exact List.cons_ne_nil _ _

/-- A summary answers as a search does: it is refused alike, or it has the condition of the search on
the same index. Its document lists buckets, no documents, and nothing else. -/
inductive Covers : Except Refusal IndexSearch → Except Refusal IndexSearch → Prop where
  | refused (refusal : Refusal) : Covers (.error refusal) (.error refusal)
  | found {summary search : IndexSearch} {condition : Json} {aggs : List (String × Json)} :
      summary.index = search.index →
      search.body.toJson.member? "query" = some condition →
      summary.body.toJson = .object [("query", condition), ("from", .number (.int 0)),
        ("size", .number (.int 0)), ("aggs", .object aggs)] →
      aggs ≠ [] → Covers (.ok summary) (.ok search)

namespace Request

/-- Two requests for the same documents: valid alike, with the same filters, restrictions and shapes
on one index. -/
structure Alike (context : Context) (a b : Request) : Prop where
  domain : a.domain = b.domain
  violations : a.violations = b.violations
  filters : a.filters = b.filters
  restrictions : a.restrictions context = b.restrictions context
  geo : a.geo = b.geo

theorem Alike.condition {context : Context} {a b : Request} (alike : a.Alike context b) (s : Settings)
    (filters : List Filter) :
    (a.body s context filters).condition = (b.body s context filters).condition := by
  simp only [body, Query.condition, Query.parts, alike.restrictions, alike.geo]

/-- The buckets of a summary; a search has none. -/
def buckets : Request → List (String × Json)
  | deviceSummary summary => Aggregation.membersJson (Term.deviceAggregations summary.aggregations)
  | deploymentSummary summary =>
    Aggregation.membersJson (Term.deploymentAggregations summary.aggregations)
  | deviceSearch _ | deploymentSearch _ => []

theorem toJson_summary (s : Settings) (context : Context) {r : Request} (present : r.buckets ≠ [])
    (filters : List Filter) : (r.body s context filters).toJson =
      .object [("query", (r.body s context filters).condition), ("from", .number (.int 0)),
        ("size", .number (.int 0)), ("aggs", .object r.buckets)] := by
  cases r with
  | deviceSummary summary => rfl
  | deploymentSummary summary => rfl
  | deviceSearch search => exact absurd rfl present
  | deploymentSearch search => exact absurd rfl present

end Request

theorem DeviceSummary.alike {terms : List (Term Scope)} (fine : Term.checkTop [] terms = [])
    (filters : List (Predicate Scope)) (geo : GeoFilters) (page perPage : Int) (context : Context) :
    (Request.deviceSummary ⟨terms, filters, geo⟩).Alike context
      (.deviceSearch ⟨page, perPage, filters, geo, [], [], []⟩) where
  domain := rfl
  violations := by
    simp only [Request.violations, violations, DeviceSearch.violations, fine, List.map_nil,
      List.append_nil]
  filters := rfl
  restrictions := by simp [Request.restrictions, Clause.among]
  geo := rfl

theorem DeploymentSummary.alike {terms : List (Term Flat)} (fine : Term.checkTop [] terms = [])
    (filters : List (Predicate Flat)) (page perPage : Int) (context : Context) :
    (Request.deploymentSummary ⟨terms, filters⟩).Alike context
      (.deploymentSearch ⟨page, perPage, filters, [], [], [], []⟩) where
  domain := rfl
  violations := by
    have nothing (parts : List Violations) : Violations.first ([] :: parts) = Violations.first parts :=
      rfl
    simp only [Request.violations, violations, DeploymentSearch.violations, fine, nothing,
      List.map_nil, List.append_nil]
  filters := rfl
  restrictions := by simp [Request.restrictions, Clause.among]
  geo := rfl

namespace Settings

theorem covers_of_alike (s : Settings) {context : Context} {summary search : Request}
    (alike : summary.Alike context search) (present : summary.buckets ≠ []) :
    Covers (s.compile context summary) (s.compile context search) := by
  have index : summary.index s = search.index s := by
    rw [Request.index, alike.domain]
    rfl
  rw [compile_eq, compile_eq, alike.violations, alike.filters, index]
  cases search.violations with
  | cons violation rest => exact .refused _
  | nil =>
    cases search.filters with
    | error problem => exact .refused _
    | ok filters =>
      have condition := Query.member?_query (q := search.body s context filters) rfl
      refine .found rfl condition ?_ present
      rw [Request.toJson_summary s context present filters, alike.condition s filters]
      rfl

/-- With terms that are in order on top, a summary runs over exactly the documents that the search
with its filters and shapes finds, whatever page is asked for, and fails exactly as the search does. -/
theorem summary_covers_search (s : Settings) (context : Context) (page perPage : Int) :
    (∀ (terms : List (Term Scope)) (filters : List (Predicate Scope)) (geo : GeoFilters),
      Term.checkTop [] terms = [] →
      Covers (s.compileDeviceSummary context ⟨terms, filters, geo⟩)
        (s.compileDeviceSearch context ⟨page, perPage, filters, geo, [], [], []⟩)) ∧
    ∀ (terms : List (Term Flat)) (filters : List (Predicate Flat)), Term.checkTop [] terms = [] →
      Covers (s.compileDeploymentSummary context ⟨terms, filters⟩)
        (s.compileDeploymentSearch context ⟨page, perPage, filters, [], [], [], []⟩) := by
  constructor
  · intro terms filters geo fine
    have present := ((Term.checkTop_eq_nil_iff terms).mp fine).1
    exact s.covers_of_alike (DeviceSummary.alike fine filters geo page perPage context)
      (Aggregation.membersJson_ne_nil (Term.aggregations_ne_nil _ present))
  · intro terms filters fine
    have present := ((Term.checkTop_eq_nil_iff terms).mp fine).1
    exact s.covers_of_alike (DeploymentSummary.alike fine filters page perPage context)
      (Aggregation.membersJson_ne_nil (Term.aggregations_ne_nil _ present))

/-- Devices by kind, and within each kind by rack. -/
def racks : List (Term Scope) :=
  [.mk "kinds" ⟨⟨"inventory"⟩, "kind"⟩ 0 [.mk "racks" ⟨⟨"tags"⟩, "rack"⟩ 5 []]]

/-- Devices that are not in the lab. -/
def outsideLab : List (Predicate Scope) := [⟨⟨⟨"tags"⟩, "site"⟩, "$nin", .strings ["lab"]⟩]

theorem summary_covers_search_racks :
    Term.checkTop [] racks = [] ∧
    (∃ found, forTests.compileDeviceSummary ⟨"acme", ["east"]⟩ ⟨racks, outsideLab, .none⟩ = .ok found) ∧
    Covers (forTests.compileDeviceSummary ⟨"acme", ["east"]⟩ ⟨racks, outsideLab, .none⟩)
      (forTests.compileDeviceSearch ⟨"acme", ["east"]⟩ ⟨7, 50, outsideLab, .none, [], [], []⟩) :=
  ⟨rfl, ⟨_, rfl⟩, (summary_covers_search forTests ⟨"acme", ["east"]⟩ 7 50).1 racks _ _ rfl⟩

end Settings

end FleetSearch
