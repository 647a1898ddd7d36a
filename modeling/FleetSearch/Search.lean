import FleetSearch.Query

/-! # Searches

Requests for devices and for deployments, and the queries that they are turned into. Who asks, and
for which groups, is never part of a request: it comes with it as its context. -/
namespace FleetSearch

/-- Whom a request is run for. -/
structure Context where
  tenant : String
  groups : List String
  deriving DecidableEq, Repr, Inhabited

structure DeviceSearch where
  page : Int
  perPage : Int
  filters : List (Predicate Scope)
  geo : GeoFilters
  sort : List (SortKey Scope)
  attributes : List (Attribute Scope)
  deviceIds : List String
  deriving Repr

structure DeploymentSearch where
  page : Int
  perPage : Int
  filters : List (Predicate Flat)
  sort : List (SortKey Flat)
  attributes : List (Attribute Flat)
  deviceIds : List String
  deploymentIds : List String
  deriving Repr

namespace Query

/-- Adds the filters one after the other, up to the first one that cannot be built. -/
def addPredicates {σ : Type} [Scoping σ] (q : Query) : List (Predicate σ) → Except FilterError Query
  | [] => .ok q
  | p :: rest =>
    match p.filter with
    | .ok filter => addPredicates (q.addFilter filter) rest
    | .error problem => .error problem

/-- Limits a fixed field to some values, if there are any. -/
def among (q : Query) (field : String) (values : List String) : Query :=
  if values.isEmpty then q else q.addMust (.oneOf field values)

def sortByAll {σ : Type} [Scoping σ] (q : Query) (keys : List (SortKey σ)) : Query :=
  keys.foldl sortBy q

def selectSome {σ : Type} [Scoping σ] (q : Query) (attributes : List (Attribute σ)) : Query :=
  if attributes.isEmpty then q else q.select attributes

/-- Limits a query to a tenant; a blank tenant sees everything. -/
def forTenant (q : Query) (tenant : String) : Query :=
  if tenant.isEmpty then q else q.addMust (.term FieldName.tenant tenant)

end Query

namespace DeviceSearch

/-- A search that asks for nothing but a page. -/
def ofPage (page perPage : Int) : DeviceSearch := ⟨page, perPage, [], .none, [], [], []⟩

def fields : List String :=
  ["page", "per_page", "filters"] ++ GeoFilters.fields ++ ["sort", "attributes", "device_ids"]

def ofPayload? (payload : Payload) : Option DeviceSearch := do
  let r ← payload.record? fields
  return {
    page := ← r.int64 "page"
    perPage := ← r.int64 "per_page"
    filters := ← r.list "filters" Predicate.ofPayload?
    geo := ← GeoFilters.read? r
    sort := ← r.list "sort" SortKey.ofPayload?
    attributes := ← r.list "attributes" Attribute.ofPayload?
    deviceIds := ← r.strings "device_ids" }

def toJson (s : DeviceSearch) : Json :=
  .object ([("page", .number (.int s.page)), ("per_page", .number (.int s.perPage)),
      ("filters", .array (s.filters.map Predicate.toJson))] ++
    s.geo.members ++
    [("sort", .array (s.sort.map SortKey.toJson)),
      ("attributes", .array (s.attributes.map Attribute.toJson)),
      ("device_ids", Json.strings s.deviceIds)])

/-- The violations of the geographic filters together, else those of the first faulty part. -/
def violations (s : DeviceSearch) : Violations :=
  Violations.first (GeoFilters.check [] s.geo ::
    (s.filters.map Predicate.violations ++ s.sort.map SortKey.violations ++
      s.attributes.map Attribute.violations))

/-- The field that tells the groups of a device. -/
def groupField : String := FieldName.of FieldName.systemScope FieldName.group .string

/-- Groups are asked for as a client would ask for them. -/
def membership (groups : List String) : Predicate Scope :=
  Predicate.of ⟨⟨FieldName.systemScope⟩, FieldName.group⟩ .oneOf (.strings groups)

/-- Limits a query to the devices of some groups, if there are any. -/
def amongGroups (q : Query) (groups : List String) : Except FilterError Query :=
  if groups.isEmpty then .ok q
  else do return q.addFilter (← (membership groups).filterBy .oneOf)

def query (s : DeviceSearch) (groups : List String) : Except FilterError Query := do
  let filtered ← Query.empty.addPredicates s.filters
  let grouped ← amongGroups filtered groups
  let paged := (grouped.sortByAll s.sort).withPage s.page s.perPage
  let listed := (paged.selectSome s.attributes).among FieldName.id s.deviceIds
  return if s.geo.isNone then listed else listed.withGeo s.geo

end DeviceSearch

namespace DeploymentSearch

/-- A search that asks for nothing but a page. -/
def ofPage (page perPage : Int) : DeploymentSearch := ⟨page, perPage, [], [], [], [], []⟩

def fields : List String :=
  ["page", "per_page", "filters", "sort", "attributes", "device_ids", "deployment_ids"]

def ofPayload? (payload : Payload) : Option DeploymentSearch := do
  let r ← payload.record? fields
  return {
    page := ← r.int64 "page"
    perPage := ← r.int64 "per_page"
    filters := ← r.list "filters" Predicate.ofPayload?
    sort := ← r.list "sort" SortKey.ofPayload?
    attributes := ← r.list "attributes" Attribute.ofPayload?
    deviceIds := ← r.strings "device_ids"
    deploymentIds := ← r.strings "deployment_ids" }

def toJson (s : DeploymentSearch) : Json :=
  .object [("page", .number (.int s.page)), ("per_page", .number (.int s.perPage)),
    ("filters", .array (s.filters.map Predicate.toJson)),
    ("sort", .array (s.sort.map SortKey.toJson)),
    ("attributes", .array (s.attributes.map Attribute.toJson)),
    ("device_ids", Json.strings s.deviceIds), ("deployment_ids", Json.strings s.deploymentIds)]

/-- The violations of the first faulty part. -/
def violations (s : DeploymentSearch) : Violations :=
  Violations.first (s.filters.map Predicate.violations ++ s.sort.map SortKey.violations ++
    s.attributes.map Attribute.violations)

/-- The deployments that a search lists are left to the compiler. -/
def query (s : DeploymentSearch) (groups : List String) : Except FilterError Query := do
  let filtered ← Query.empty.addPredicates s.filters
  let paged := ((filtered.among FieldName.deploymentGroups groups).sortByAll s.sort).withPage
    s.page s.perPage
  return (paged.selectSome s.attributes).among FieldName.device s.deviceIds

end DeploymentSearch

end FleetSearch
