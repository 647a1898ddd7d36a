import FleetSearch.Proofs.Meaning
import FleetSearch.Proofs.Outcome
import FleetSearch.Proofs.Restriction

/-! # Placement

Every part of an accepted request has one place in the document, in the order in which the parts
were asked for, and nothing else stands there. -/
namespace FleetSearch

/-- What is built is built in order, one for one. -/
theorem map_eq_of_mapM_eq_ok {ε α β : Type} {f : α → Except ε β} {xs : List α} {ys : List β}
    (built : xs.mapM f = .ok ys) : xs.map f = ys.map .ok := by
  induction xs generalizing ys with
  | nil => cases built; rfl
  | cons x rest ih =>
    obtain ⟨y, tail, first, others, rfl⟩ := mapM_cons_eq_ok built
    rw [List.map_cons, List.map_cons, first, ih others]

/-! ## The written parts -/

/-- The field of a document that tells its device. -/
def Domain.devicesField : Domain → String
  | .devices => "id"
  | .deployments => "device_id"

namespace Request

/-- The devices that a search lists. -/
def deviceIds : Request → List String
  | deviceSearch search => search.deviceIds
  | deploymentSearch search => search.deviceIds
  | deviceSummary _ | deploymentSummary _ => []

/-- The deployments that a search lists. -/
def deploymentIds : Request → List String
  | deploymentSearch search => search.deploymentIds
  | deviceSearch _ | deviceSummary _ | deploymentSummary _ => []

/-- The conditions that the filters add, one after the other. -/
def conditions : Request → List (List Json × List Json)
  | deviceSearch search => search.filters.map Predicate.conditions
  | deviceSummary summary => summary.filters.map Predicate.conditions
  | deploymentSearch search => search.filters.map Predicate.conditions
  | deploymentSummary summary => summary.filters.map Predicate.conditions

/-- The levels of order that each criterion makes. -/
def criteria : Request → List (List Json)
  | deviceSearch search => search.sort.map fun key => key.subject.levels key.order
  | deploymentSearch search => search.sort.map fun key => key.subject.levels key.order
  | deviceSummary _ | deploymentSummary _ => []

/-- The fields of each attribute to show. -/
def selected : Request → List (List String)
  | deviceSearch search => search.attributes.map Attribute.allFields
  | deploymentSearch search => search.attributes.map Attribute.allFields
  | deviceSummary _ | deploymentSummary _ => []

/-- The first place and the number of the results to list. A summary lists none. -/
def listed (s : Settings) : Request → Int × Int
  | deviceSearch search =>
    (Query.firstPlace (max search.page 1) (s.pageSize search.perPage), s.pageSize search.perPage)
  | deploymentSearch search =>
    (Query.firstPlace (max search.page 1) (s.pageSize search.perPage), s.pageSize search.perPage)
  | deviceSummary _ | deploymentSummary _ => (0, 0)

/-- The buckets to count in: a table of those of the terms. -/
def counted : Request → Option (List (String × Json))
  | deviceSummary summary => some (Table.ofList
      (Term.namedBuckets (fun a => FieldName.of a.scope.name a.name .string) summary.aggregations))
  | deploymentSummary summary =>
    some (Table.ofList (Term.namedBuckets Attribute.name summary.aggregations))
  | deviceSearch _ | deploymentSearch _ => none

/-- What has to hold: the filters one after the other, then the groups, the devices, the tenant and
the deployments, each if there are any. -/
def mustHold (context : Context) (r : Request) : List Json :=
  r.conditions.flatMap Prod.fst ++
    Json.among r.domain.groupsField context.groups ++ Json.among r.domain.devicesField r.deviceIds ++
    (if context.tenant = "" then []
      else [.condition "term" "tenant_id" (.string context.tenant)]) ++
    Json.among "deployment_id" r.deploymentIds

/-- What must not hold: the filters one after the other. -/
def mustNotHold (r : Request) : List Json := r.conditions.flatMap Prod.snd

def levels (r : Request) : List Json := r.criteria.flatten

/-- The fields of each attribute, then those that always come. -/
def shown (r : Request) : List String := r.selected.flatten ++ ["id", "check_in_time"]

/-- The document of a request, part by part; what is not asked for is left out. -/
def document (s : Settings) (context : Context) (r : Request) : Json :=
  .object ([("query", .object [("bool", .object (
      (if r.mustHold context = [] then [] else [("must", .array (r.mustHold context))]) ++
      (if r.mustNotHold = [] then [] else [("must_not", .array r.mustNotHold)]) ++
      match r.geo.written? with
      | some shape => [("filter", shape)]
      | none => []))])] ++
    (if r.levels = [] then [] else [("sort", .array r.levels)]) ++
    [("from", .number (.int (r.listed s).1)), ("size", .number (.int (r.listed s).2))] ++
    (if r.selected = [] then []
      else [("fields", .array (r.shown.map .string)), ("_source", .bool false)]) ++
    match r.counted with
    | some buckets => [("aggs", .object buckets)]
    | none => [])

theorem length_levels (r : Request) : r.levels.length = 2 * r.criteria.length := by
  have pairs : ∀ levels ∈ r.criteria, levels.length = 2 := by
    cases r <;> simp [criteria, Attribute.levels]
  rw [levels, List.length_flatten, List.map_congr_left pairs, List.map_const',
    List.sum_replicate_nat, Nat.mul_comm]

theorem length_shown (r : Request) : r.shown.length = 3 * r.selected.length + 2 := by
  have triples : ∀ fields ∈ r.selected, fields.length = 3 := by
    cases r <;> simp [selected, Attribute.allFields]
  rw [shown, List.length_append, List.length_flatten, List.map_congr_left triples, List.map_const',
    List.sum_replicate_nat, Nat.mul_comm]
  rfl

end Request

/-! ## The parts of a body -/

namespace Predicate

variable {σ : Type} [Scoping σ]

/-- A filter is written as the conditions that its predicate asks for. -/
theorem written_filter {p : Predicate σ} {f : Filter} (built : p.filter = .ok f) :
    f.written = p.conditions := by
  obtain ⟨operator, named, built⟩ := exists_built built
  rw [conditions, named]
  cases built with
  | range bound => cases bound <;> rfl
  | present wanted known =>
    rw [known]
    cases wanted <;> rfl
  | _ => rfl

theorem map_written_filters {predicates : List (Predicate σ)} {filters : List Filter}
    (built : predicates.mapM filter = .ok filters) :
    filters.map Filter.written = predicates.map conditions := by
  induction predicates generalizing filters with
  | nil => cases built; rfl
  | cons p rest ih =>
    obtain ⟨f, fs, first, others, rfl⟩ := mapM_cons_eq_ok built
    rw [List.map_cons, List.map_cons, written_filter first, ih others]

end Predicate

namespace SortKey

variable {σ : Type} [Scoping σ]

/-- A valid sort key says in which order. -/
theorem order_ne_blank {key : SortKey σ} (valid : key.violations = []) : key.order ≠ "" := by
  have rules := ((Violations.check_eq_nil_iff _ _ _).mp valid).2
  exact (Rule.required_eq_none_iff _).mp (rules _ List.mem_cons_self)

theorem map_clauses {key : SortKey σ} (valid : key.violations = []) :
    key.clauses.map SortClause.toJson = key.subject.levels key.order := by
  simp only [clauses, String.isEmpty_iff, order_ne_blank valid, if_false]
  rfl

theorem map_flatMap_clauses {keys : List (SortKey σ)} (valid : ∀ key ∈ keys, key.violations = []) :
    (keys.flatMap clauses).map SortClause.toJson =
      (keys.map fun key => key.subject.levels key.order).flatten := by
  rw [List.map_flatMap, List.flatMap_def]
  exact congrArg List.flatten (List.map_congr_left fun key member => map_clauses (valid key member))

end SortKey

namespace Request

theorem map_written_filters {r : Request} {filters : List Filter} (built : r.filters = .ok filters) :
    filters.map Filter.written = r.conditions := by
  cases r <;> exact Predicate.map_written_filters built

theorem map_among (field : String) (values : List String) :
    (Clause.among field values).map Clause.toJson = Json.among field values := by
  cases values <;> rfl

theorem map_tenantClauses (context : Context) : context.tenantClauses.map Clause.toJson =
    if context.tenant = "" then []
    else [.condition "term" "tenant_id" (.string context.tenant)] := by
  unfold Context.tenantClauses
  by_cases nobody : context.tenant = ""
  · simp [nobody]
  · simp only [String.isEmpty_iff, nobody, if_false]
    rfl

theorem map_restrictions (context : Context) (r : Request) :
    (r.restrictions context).map Clause.toJson =
      Json.among r.domain.groupsField context.groups ++ Json.among r.domain.devicesField r.deviceIds ++
      (if context.tenant = "" then []
        else [.condition "term" "tenant_id" (.string context.tenant)]) ++
      Json.among "deployment_id" r.deploymentIds := by
  have none (field : String) : Json.among field [] = [] := rfl
  have group : DeviceSearch.groupField = "system_group_str" := by decide
  cases r <;> simp only [restrictions, List.map_append, map_among, map_tenantClauses, deviceIds,
    deploymentIds, domain, Domain.groupsField, Domain.devicesField, none, group, List.append_nil] <;>
    rfl

theorem map_sortClauses {r : Request} (valid : r.violations = []) :
    r.sortClauses.map SortClause.toJson = r.levels := by
  rw [violations_eq_nil_iff] at valid
  have keys {σ : Type} [Scoping σ] {keys : List (SortKey σ)}
      (parts : ∀ part ∈ keys.map SortKey.violations, part ∈ r.parts) :
      ∀ key ∈ keys, key.violations = [] :=
    fun key h => valid _ (parts _ (List.mem_map.mpr ⟨key, h, rfl⟩))
  cases r with
  | deviceSearch search =>
    refine SortKey.map_flatMap_clauses (keys fun _ h => ?_)
    simp only [parts, List.mem_cons, List.mem_append, h, true_or, or_true]
  | deploymentSearch search =>
    refine SortKey.map_flatMap_clauses (keys fun _ h => ?_)
    simp only [parts, List.mem_append, h, true_or, or_true]
  | deviceSummary summary => rfl
  | deploymentSummary summary => rfl

theorem projection_eq (r : Request) :
    r.projection = if r.selected = [] then none else some r.shown := by
  have same {σ : Type} [Scoping σ] (attributes : List (Attribute σ)) :
      Attribute.projection attributes = if attributes.map Attribute.allFields = [] then none
        else some ((attributes.map Attribute.allFields).flatten ++ ["id", "check_in_time"]) := by
    cases attributes <;> rfl
  cases r with
  | deviceSearch search => exact same search.attributes
  | deploymentSearch search => exact same search.attributes
  | deviceSummary summary => rfl
  | deploymentSummary summary => rfl

theorem window_eq (s : Settings) (r : Request) :
    Query.pageOffset (r.window s).1 (r.window s).2 = (r.listed s).1 ∧
      (r.window s).2 = (r.listed s).2 := by
  cases r with
  | deviceSearch search =>
    simp only [window, s.paging_eq, Query.pageOffset_eq_firstPlace, listed, and_self]
  | deploymentSearch search =>
    simp only [window, s.paging_eq, Query.pageOffset_eq_firstPlace, listed, and_self]
  | deviceSummary summary => exact ⟨rfl, rfl⟩
  | deploymentSummary summary => exact ⟨rfl, rfl⟩

theorem memberOf_aggregations (r : Request) :
    Json.memberOf "aggs" Aggregation.listJson r.aggregations =
      match r.counted with
      | some buckets => [("aggs", .object buckets)]
      | none => [] := by
  have written {σ : Type} (fieldOf : Attribute σ → String) (terms : List (Term σ)) :
      [("aggs", Aggregation.listJson (Term.aggregations fieldOf terms))] =
        [("aggs", .object (Table.ofList (Term.namedBuckets fieldOf terms)))] :=
    congrArg (fun value => [("aggs", value)]) (Term.listJson_aggregations fieldOf terms)
  cases r with
  | deviceSummary summary => exact written _ summary.aggregations
  | deploymentSummary summary => exact written _ summary.aggregations
  | deviceSearch search => rfl
  | deploymentSearch search => rfl

theorem toJson_body (s : Settings) (context : Context) {r : Request} (valid : r.violations = [])
    {filters : List Filter} (built : r.filters = .ok filters) :
    (r.body s context filters).toJson = r.document s context := by
  have written := map_written_filters built
  have must : (r.body s context filters).must.map Clause.toJson = r.mustHold context := by
    rw [body, List.map_append, map_restrictions, mustHold, ← written, List.map_flatMap,
      List.flatMap_map]
    simp only [Clause.map_toJson, Filter.written, List.append_assoc]
  have mustNot : (r.body s context filters).mustNot.map Clause.toJson = r.mustNotHold := by
    rw [body, mustNotHold, ← written, List.map_flatMap, List.flatMap_map]
    simp only [Clause.map_toJson, Filter.written]
  have sort : (r.body s context filters).sort.map SortClause.toJson = r.levels :=
    map_sortClauses valid
  have geo : (r.body s context filters).geo.clause? = r.geo.written? := r.geo.clause?_eq_written?
  have offset : (r.body s context filters).offset = (r.listed s).1 := (r.window_eq s).1
  have size : (r.body s context filters).size = (r.listed s).2 := (r.window_eq s).2
  have projection : (r.body s context filters).projection =
      if r.selected = [] then none else some r.shown := r.projection_eq
  have aggs : Json.memberOf "aggs" Aggregation.listJson (r.body s context filters).aggregations = _ :=
    r.memberOf_aggregations
  rw [Query.toJson, Query.members_of_no_extras rfl, Query.slots, Query.condition, Query.parts, must,
    mustNot, sort, geo, offset, size, projection, aggs, document]
  simp only [Query.clausesMember_eq]
  -- The fields come with `_source`, so both are there or neither is.
  by_cases nothing : r.selected = []
  · simp only [nothing, if_true]
    cases r.geo.written? <;> rfl
  · simp only [nothing, if_false]
    cases r.geo.written? <;> rfl

end Request

namespace Settings

/-- The document of an accepted request is its parts, each in its place and in the order in which it
was asked for: none is lost, none is there twice, and there is nothing else. Each filter adds the
conditions that its predicate asks for. -/
theorem parts_in_place {s : Settings} {context : Context} {r : Request} {found : IndexSearch}
    (accepted : s.compile context r = .ok found) :
    found.body.toJson = r.document s context ∧
      (∃ filters : List Filter, r.attempts.map Attempt.built = filters.map .ok ∧
        filters.map Filter.written = r.conditions) ∧
      r.levels.length = 2 * r.criteria.length ∧ r.shown.length = 3 * r.selected.length + 2 := by
  obtain ⟨valid, filters, built, rfl⟩ := (compile_eq_ok_iff s context r found).mp accepted
  refine ⟨r.toJson_body s context valid built, ⟨filters, ?_, r.map_written_filters built⟩,
    r.length_levels, r.length_shown⟩
  rw [Request.filters_eq_mapM] at built
  exact map_eq_of_mapM_eq_ok built

/-- Deployments that are not done, the latest first, on two devices. -/
def pending : Request :=
  .deploymentSearch { DeploymentSearch.ofPage 2 10 with
    filters := [⟨⟨.flat, "status"⟩, "$nin", .strings ["done", "aborted"]⟩,
      ⟨⟨.flat, "retries"⟩, "$lt", .number (.int 3)⟩, ⟨⟨.flat, "finished"⟩, "$exists", .boolean false⟩]
    sort := [⟨⟨.flat, "created"⟩, "desc"⟩, ⟨⟨.flat, "status"⟩, "asc"⟩]
    attributes := [⟨.flat, "status"⟩]
    deviceIds := ["gate", "lift"]
    deploymentIds := ["spring"] }

theorem parts_in_place_pending :
    ∃ found, standard.compile ⟨"acme", ["east"]⟩ pending = .ok found ∧
      found.body.toJson = pending.document standard ⟨"acme", ["east"]⟩ ∧
      pending.document standard ⟨"acme", ["east"]⟩ = .object [
        ("query", .object [("bool", .object [
          ("must", .array [
            .object [("range", .object [("retries", .object [("lt", .number (.int 3))])])],
            .object [("terms", .object [("deployment_groups", .array [.string "east"])])],
            .object [("terms", .object [("device_id", .array [.string "gate", .string "lift"])])],
            .object [("term", .object [("tenant_id", .string "acme")])],
            .object [("terms", .object [("deployment_id", .array [.string "spring"])])]]),
          ("must_not", .array [
            .object [("terms", .object [("status", .array [.string "done", .string "aborted"])])],
            .object [("exists", .object [("field", .string "finished")])],
            .object [("exists", .object [("field", .string "finished")])],
            .object [("exists", .object [("field", .string "finished")])]])])]),
        ("sort", .array [
          .object [("created",
            .object [("order", .string "desc"), ("unmapped_type", .string "keyword")])],
          .object [("created",
            .object [("order", .string "desc"), ("unmapped_type", .string "double")])],
          .object [("status",
            .object [("order", .string "asc"), ("unmapped_type", .string "keyword")])],
          .object [("status",
            .object [("order", .string "asc"), ("unmapped_type", .string "double")])]]),
        ("from", .number (.int 10)), ("size", .number (.int 10)),
        ("fields", .array [.string "status", .string "status", .string "status", .string "id",
          .string "check_in_time"]),
        ("_source", .bool false)] ∧
      pending.levels.length = 4 ∧ pending.shown.length = 5 := by
  obtain ⟨found, accepted⟩ : ∃ found, standard.compile ⟨"acme", ["east"]⟩ pending = .ok found :=
    ⟨_, rfl⟩
  obtain ⟨document, -, levels, shown⟩ := parts_in_place accepted
  exact ⟨found, accepted, document, rfl, levels, shown⟩

end Settings

end FleetSearch
