import FleetSearch.Search

/-! # Summaries

Requests for buckets instead of documents: aggregations over what a search would find. -/
namespace FleetSearch

structure DeviceSummary where
  aggregations : List (Term Scope)
  filters : List (Predicate Scope)
  geo : GeoFilters
  deriving Repr

structure DeploymentSummary where
  aggregations : List (Term Flat)
  filters : List (Predicate Flat)
  deriving Repr

namespace DeviceSummary

def fields : List String := ["aggregations", "filters"] ++ GeoFilters.fields

def ofPayload? (payload : Payload) : Option DeviceSummary := do
  let r ← payload.record? fields
  return {
    aggregations := ← r.list "aggregations" Term.ofPayload?
    filters := ← r.list "filters" Predicate.ofPayload?
    geo := ← GeoFilters.read? r }

def toJson (s : DeviceSummary) : Json :=
  .object ([("aggregations", .array (Term.listJson s.aggregations)),
    ("filters", .array (s.filters.map Predicate.toJson))] ++ s.geo.members)

/-- The violations of the terms and of the geographic filters together, else those of the first
faulty filter. -/
def violations (s : DeviceSummary) : Violations :=
  Violations.first (GeoFilters.check (Term.checkTop [] s.aggregations) s.geo ::
    s.filters.map Predicate.violations)

/-- The search for the documents that are summed up. -/
def search (s : DeviceSummary) : DeviceSearch :=
  { DeviceSearch.ofPage 0 0 with filters := s.filters, geo := s.geo }

end DeviceSummary

namespace DeploymentSummary

def fields : List String := ["aggregations", "filters"]

def ofPayload? (payload : Payload) : Option DeploymentSummary := do
  let r ← payload.record? fields
  return {
    aggregations := ← r.list "aggregations" Term.ofPayload?
    filters := ← r.list "filters" Predicate.ofPayload? }

def toJson (s : DeploymentSummary) : Json :=
  .object [("aggregations", .array (Term.listJson s.aggregations)),
    ("filters", .array (s.filters.map Predicate.toJson))]

/-- The violations of the terms, else those of the first faulty filter. -/
def violations (s : DeploymentSummary) : Violations :=
  Violations.first (Term.checkTop [] s.aggregations :: s.filters.map Predicate.violations)

/-- The search for the documents that are summed up. -/
def search (s : DeploymentSummary) : DeploymentSearch :=
  { DeploymentSearch.ofPage 0 0 with filters := s.filters }

end DeploymentSummary

end FleetSearch
