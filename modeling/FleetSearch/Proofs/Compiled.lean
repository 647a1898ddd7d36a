import FleetSearch.Compiler

/-! # What a request compiles to

Every request compiles to one body: the conditions of its own filters, then those that the context
and the listed ids add, with nothing else in between. A request fails on its violations first, and
then on its first filter that cannot be built. -/
namespace FleetSearch

/-! ## The parts that are added to a query -/

/-- The condition that a field has one of some values, if there are any. -/
def Clause.among (field : String) (values : List String) : List Clause :=
  if values.isEmpty then [] else [.oneOf field values]

/-- The condition that limits a query to a tenant. -/
def Context.tenantClauses (context : Context) : List Clause :=
  if context.tenant.isEmpty then [] else [.term FieldName.tenant context.tenant]

/-- The two levels of order that a sort key makes. -/
def SortKey.clauses {σ : Type} [Scoping σ] (key : SortKey σ) : List SortClause :=
  let order := if key.order.isEmpty then SortKey.ascending else key.order
  [.by key.subject.variants.string order "keyword", .by key.subject.variants.number order "double"]

/-- The fields that a selection asks for; none for an empty one. -/
def Attribute.projection {σ : Type} [Scoping σ] (attributes : List (Attribute σ)) :
    Option (List String) :=
  if attributes.isEmpty then none
  else some (attributes.flatMap (·.variants.toList) ++ [FieldName.id, FieldName.checkIn])

/-- Filters that are all built are built one by one. -/
theorem mapM_cons_eq_ok {ε α β : Type} {f : α → Except ε β} {x : α} {rest : List α} {ys : List β}
    (built : (x :: rest).mapM f = .ok ys) :
    ∃ y tail, f x = .ok y ∧ rest.mapM f = .ok tail ∧ ys = y :: tail := by
  rw [List.mapM_cons] at built
  cases head : f x with
  | error problem => rw [head] at built; cases built
  | ok y =>
    cases tail : rest.mapM f with
    | error problem => rw [head, tail] at built; cases built
    | ok ys' => rw [head, tail] at built; cases built; exact ⟨y, ys', rfl, rfl, rfl⟩

/-- All are built if each can be. -/
theorem exists_mapM_eq_ok_iff {ε α β : Type} {f : α → Except ε β} {xs : List α} :
    (∃ ys, xs.mapM f = .ok ys) ↔ ∀ x ∈ xs, ∃ y, f x = .ok y := by
  induction xs with
  | nil => exact ⟨fun _ => List.forall_mem_nil _, fun _ => ⟨[], rfl⟩⟩
  | cons x rest ih =>
    rw [List.forall_mem_cons, ← ih]
    constructor
    · rintro ⟨ys, built⟩
      obtain ⟨y, tail, first, others, rfl⟩ := mapM_cons_eq_ok built
      exact ⟨⟨y, first⟩, tail, others⟩
    · rintro ⟨⟨y, first⟩, tail, others⟩
      refine ⟨y :: tail, ?_⟩
      rw [List.mapM_cons, first, others]
      rfl

namespace Query

variable {σ : Type} [Scoping σ]

theorem among_eq (q : Query) (field : String) (values : List String) :
    q.among field values = { q with must := q.must ++ Clause.among field values } := by
  unfold among Clause.among
  split <;> simp [addMust]

theorem forTenant_eq (q : Query) (context : Context) :
    q.forTenant context.tenant = { q with must := q.must ++ context.tenantClauses } := by
  unfold forTenant Context.tenantClauses
  split <;> simp [addMust]

theorem sortByAll_eq (q : Query) (keys : List (SortKey σ)) :
    q.sortByAll keys = { q with sort := q.sort ++ keys.flatMap SortKey.clauses } := by
  unfold sortByAll
  induction keys generalizing q with
  | nil => simp
  | cons key rest ih =>
    rw [List.foldl_cons, ih]
    simp [sortBy, addSort, SortKey.clauses]

theorem selectSome_eq (q : Query) (attributes : List (Attribute σ)) :
    q.selectSome attributes =
      { q with projection := (Attribute.projection attributes).or q.projection } := by
  unfold selectSome Attribute.projection
  split <;> simp [select, withProjection]

theorem foldl_addFilter (q : Query) (filters : List Filter) :
    filters.foldl addFilter q =
      { q with
        must := q.must ++ filters.flatMap Filter.must
        mustNot := q.mustNot ++ filters.flatMap Filter.mustNot } := by
  induction filters generalizing q with
  | nil => simp
  | cons filter rest ih =>
    rw [List.foldl_cons, ih]
    simp [addFilter]

/-- All filters are built before any is looked at, or the first failure is the answer. -/
theorem addPredicates_eq (q : Query) (predicates : List (Predicate σ)) :
    q.addPredicates predicates =
      (predicates.mapM Predicate.filter).map fun filters => filters.foldl addFilter q := by
  induction predicates generalizing q with
  | nil => rfl
  | cons p rest ih =>
    rw [addPredicates, List.mapM_cons]
    cases p.filter with
    | error problem => rfl
    | ok filter =>
      simp only [ih]
      cases rest.mapM Predicate.filter <;> rfl

end Query

/-! ## The body of a request -/

namespace Request

def domain : Request → Domain
  | deviceSearch _ | deviceSummary _ => .devices
  | deploymentSearch _ | deploymentSummary _ => .deployments

def violations : Request → Violations
  | deviceSearch search => search.violations
  | deviceSummary summary => summary.violations
  | deploymentSearch search => search.violations
  | deploymentSummary summary => summary.violations

/-- The filters that the client asks for, up to the first that cannot be built. -/
def filters : Request → Except FilterError (List Filter)
  | deviceSearch search => search.filters.mapM Predicate.filter
  | deviceSummary summary => summary.filters.mapM Predicate.filter
  | deploymentSearch search => search.filters.mapM Predicate.filter
  | deploymentSummary summary => summary.filters.mapM Predicate.filter

/-- The conditions on fixed fields: the groups, the devices, the tenant and the deployments. -/
def restrictions (context : Context) : Request → List Clause
  | deviceSearch search =>
    Clause.among DeviceSearch.groupField context.groups ++
      Clause.among FieldName.id search.deviceIds ++ context.tenantClauses
  | deviceSummary _ =>
    Clause.among DeviceSearch.groupField context.groups ++ context.tenantClauses
  | deploymentSearch search =>
    Clause.among FieldName.deploymentGroups context.groups ++
      Clause.among FieldName.device search.deviceIds ++ context.tenantClauses ++
      Clause.among FieldName.deployment search.deploymentIds
  | deploymentSummary _ =>
    Clause.among FieldName.deploymentGroups context.groups ++ context.tenantClauses

def sortClauses : Request → List SortClause
  | deviceSearch search => search.sort.flatMap SortKey.clauses
  | deploymentSearch search => search.sort.flatMap SortKey.clauses
  | deviceSummary _ | deploymentSummary _ => []

def geo : Request → GeoFilters
  | deviceSearch search => search.geo
  | deviceSummary summary => summary.geo
  | deploymentSearch _ | deploymentSummary _ => .none

/-- The page and its size; a summary lists no documents. -/
def window (s : Settings) : Request → Int × Int
  | deviceSearch search => s.paging search.page search.perPage
  | deploymentSearch search => s.paging search.page search.perPage
  | deviceSummary _ | deploymentSummary _ => (0, 0)

def projection : Request → Option (List String)
  | deviceSearch search => Attribute.projection search.attributes
  | deploymentSearch search => Attribute.projection search.attributes
  | deviceSummary _ | deploymentSummary _ => none

def aggregations : Request → Option Aggregations
  | deviceSummary summary => some (Term.deviceAggregations summary.aggregations)
  | deploymentSummary summary => some (Term.deploymentAggregations summary.aggregations)
  | deviceSearch _ | deploymentSearch _ => none

/-- The body that a request with these filters compiles to. -/
def body (s : Settings) (context : Context) (r : Request) (filters : List Filter) : Query where
  must := filters.flatMap Filter.must ++ r.restrictions context
  mustNot := filters.flatMap Filter.mustNot
  sort := r.sortClauses
  geo := r.geo
  offset := Query.pageOffset (r.window s).1 (r.window s).2
  size := (r.window s).2
  projection := r.projection
  aggregations := r.aggregations
  extras := []

def index (s : Settings) (r : Request) : String :=
  match r.domain with
  | .devices => s.devicesIndex
  | .deployments => s.deploymentsIndex

end Request

theorem GeoFilters.eq_none {g : GeoFilters} (h : g.isNone = true) : g = .none := by
  obtain ⟨distance, box⟩ := g
  cases distance <;> cases box <;> simp_all [isNone, GeoFilters.none]

/-- The condition on the groups is the filter that a client would write for it, and can always be
built. -/
theorem DeviceSearch.membership_filterBy (groups : List String) :
    (membership groups).filterBy .oneOf = .ok ⟨[.oneOf groupField groups], []⟩ := rfl

theorem DeviceSearch.amongGroups_eq (q : Query) (groups : List String) :
    amongGroups q groups = .ok { q with must := q.must ++ Clause.among groupField groups } := by
  unfold amongGroups Clause.among
  split
  · simp
  · rw [membership_filterBy]
    simp [Query.addFilter, bind, Except.bind, pure, Except.pure]

/-- The query of a device search before it is limited to a tenant. -/
theorem DeviceSearch.query_eq (search : DeviceSearch) (groups : List String) :
    search.query groups = (search.filters.mapM Predicate.filter).map fun filters =>
      { must := filters.flatMap Filter.must ++
          (Clause.among groupField groups ++ Clause.among FieldName.id search.deviceIds)
        mustNot := filters.flatMap Filter.mustNot
        sort := search.sort.flatMap SortKey.clauses
        geo := search.geo
        offset := Query.pageOffset search.page search.perPage
        size := search.perPage
        projection := Attribute.projection search.attributes
        aggregations := none
        extras := [] } := by
  rw [query, Query.addPredicates_eq]
  cases search.filters.mapM Predicate.filter with
  | error problem => rfl
  | ok filters =>
    simp only [Except.map, Query.foldl_addFilter, amongGroups_eq, Query.among_eq,
      Query.sortByAll_eq, Query.selectSome_eq, Query.withPage, Query.withGeo, Query.empty, bind,
      Except.bind, pure, Except.pure, List.nil_append, List.append_assoc, Option.or_none]
    split
    · rename_i blank
      rw [GeoFilters.eq_none blank]
    · rfl

/-- The query of a deployment search before it is limited to a tenant. -/
theorem DeploymentSearch.query_eq (search : DeploymentSearch) (groups : List String) :
    search.query groups = (search.filters.mapM Predicate.filter).map fun filters =>
      { must := filters.flatMap Filter.must ++
          (Clause.among FieldName.deploymentGroups groups ++
            Clause.among FieldName.device search.deviceIds)
        mustNot := filters.flatMap Filter.mustNot
        sort := search.sort.flatMap SortKey.clauses
        geo := .none
        offset := Query.pageOffset search.page search.perPage
        size := search.perPage
        projection := Attribute.projection search.attributes
        aggregations := none
        extras := [] } := by
  rw [query, Query.addPredicates_eq]
  cases search.filters.mapM Predicate.filter with
  | error problem => rfl
  | ok filters =>
    simp only [Except.map, Query.foldl_addFilter, Query.among_eq, Query.sortByAll_eq,
      Query.selectSome_eq, Query.withPage, Query.empty, bind, Except.bind, pure,
      Except.pure, List.nil_append, List.append_assoc, Option.or_none]

/-- A pure last step of a build is part of what it builds. -/
theorem map_bind_pure {ε α β γ : Type} (x : Except ε α) (f : α → β) (g : β → γ) :
    (x.map f >>= fun b => pure (g b)) = x.map fun a => g (f a) := by
  cases x <;> rfl

namespace Settings

/-- The one equation of the compiler: violations first, then the filters, then the body. -/
theorem compile_eq (s : Settings) (context : Context) (r : Request) :
    s.compile context r =
      checked r.violations (r.filters.map fun filters => ⟨r.index s, r.body s context filters⟩) := by
  cases r with
  | deviceSearch search =>
    simp only [compile, compileDeviceSearch, DeviceSearch.query_eq, map_bind_pure,
      Query.forTenant_eq, List.append_assoc]
    simp only [Request.body, Request.restrictions, List.append_assoc]
    rfl
  | deviceSummary summary =>
    simp only [compile, compileDeviceSummary, DeviceSearch.query_eq, map_bind_pure,
      Query.forTenant_eq, List.append_assoc]
    rfl
  | deploymentSearch search =>
    simp only [compile, compileDeploymentSearch, DeploymentSearch.query_eq, map_bind_pure,
      Query.forTenant_eq, Query.among_eq, List.append_assoc]
    simp only [Request.body, Request.restrictions, List.append_assoc]
    rfl
  | deploymentSummary summary =>
    simp only [compile, compileDeploymentSummary, DeploymentSearch.query_eq, map_bind_pure,
      Query.forTenant_eq, List.append_assoc]
    rfl

/-- A request compiles exactly when it is valid and all its filters can be built. -/
theorem compile_eq_ok_iff (s : Settings) (context : Context) (r : Request) (found : IndexSearch) :
    s.compile context r = .ok found ↔ r.violations = [] ∧
      ∃ filters, r.filters = .ok filters ∧ found = ⟨r.index s, r.body s context filters⟩ := by
  rw [compile_eq]
  cases r.violations with
  | nil =>
    cases r.filters with
    | error problem =>
      change Except.error _ = Except.ok found ↔ _
      simp
    | ok filters =>
      change Except.ok _ = Except.ok found ↔ _
      simp [eq_comm]
  | cons violation rest => simp [checked]

end Settings

end FleetSearch
