import FleetSearch.Request
import FleetSearch.Settings

/-! # The compiler

Turns checked requests into searches of an index, limited to the tenant and the groups of their
context. -/
namespace FleetSearch

/-- A query with the index that it is for. -/
structure IndexSearch where
  index : String
  body : Query
  deriving Repr

def IndexSearch.toJson (s : IndexSearch) : Json :=
  .object [("index", .string s.index), ("body", s.body.toJson)]

/-- Why a request is refused. -/
inductive Refusal where
  | invalid (violations : Violations)
  | filter (error : FilterError)
  deriving Repr

def Refusal.message : Refusal → String
  | invalid violations => violations.text
  | filter error => error.message

namespace Settings

def firstPage : Int := 1

/-- The first page where none is given, and a page size within the limits. -/
def paging (s : Settings) (page perPage : Int) : Int × Int :=
  (if page ≤ 0 then firstPage else page,
    if perPage ≤ 0 then s.defaultPerPage
    else if s.mostPerPage < perPage then s.mostPerPage
    else perPage)

/-- Goes on only with a valid request. -/
def checked {α : Type} (violations : Violations) (build : Except FilterError α) :
    Except Refusal α :=
  match violations with
  | [] => build.mapError .filter
  | _ :: _ => .error (.invalid violations)

def compileDeviceSearch (s : Settings) (context : Context) (search : DeviceSearch) :
    Except Refusal IndexSearch :=
  checked search.violations do
    let (page, perPage) := s.paging search.page search.perPage
    let q ← DeviceSearch.query { search with page, perPage } context.groups
    return ⟨s.devicesIndex, q.forTenant context.tenant⟩

def compileDeviceSummary (s : Settings) (context : Context) (summary : DeviceSummary) :
    Except Refusal IndexSearch :=
  checked summary.violations do
    let q ← summary.search.query context.groups
    return ⟨s.devicesIndex, ((q.forTenant context.tenant).withSize 0).withAggregations
      (Term.deviceAggregations summary.aggregations)⟩

def compileDeploymentSearch (s : Settings) (context : Context) (search : DeploymentSearch) :
    Except Refusal IndexSearch :=
  checked search.violations do
    let (page, perPage) := s.paging search.page search.perPage
    let q ← DeploymentSearch.query { search with page, perPage } context.groups
    return ⟨s.deploymentsIndex,
      (q.forTenant context.tenant).among FieldName.deployment search.deploymentIds⟩

def compileDeploymentSummary (s : Settings) (context : Context) (summary : DeploymentSummary) :
    Except Refusal IndexSearch :=
  checked summary.violations do
    let q ← summary.search.query context.groups
    return ⟨s.deploymentsIndex, ((q.forTenant context.tenant).withSize 0).withAggregations
      (Term.deploymentAggregations summary.aggregations)⟩

def compile (s : Settings) (context : Context) : Request → Except Refusal IndexSearch
  | .deviceSearch search => s.compileDeviceSearch context search
  | .deviceSummary summary => s.compileDeviceSummary context summary
  | .deploymentSearch search => s.compileDeploymentSearch context search
  | .deploymentSummary summary => s.compileDeploymentSummary context summary

end Settings

end FleetSearch
