import FleetSearch.Summary

/-! # Requests

All that a client can ask for: documents or buckets, of devices or of deployments. -/
namespace FleetSearch

/-- The four requests. -/
inductive Request where
  | deviceSearch (search : DeviceSearch)
  | deviceSummary (summary : DeviceSummary)
  | deploymentSearch (search : DeploymentSearch)
  | deploymentSummary (summary : DeploymentSummary)
  deriving Repr

inductive Domain where
  | devices
  | deployments
  deriving DecidableEq, Repr

inductive RequestKind where
  | search
  | summary
  deriving DecidableEq, Repr

def Request.ofPayload? (domain : Domain) (kind : RequestKind) (payload : Payload) :
    Option Request :=
  match domain, kind with
  | .devices, .search => (DeviceSearch.ofPayload? payload).map .deviceSearch
  | .devices, .summary => (DeviceSummary.ofPayload? payload).map .deviceSummary
  | .deployments, .search => (DeploymentSearch.ofPayload? payload).map .deploymentSearch
  | .deployments, .summary => (DeploymentSummary.ofPayload? payload).map .deploymentSummary

end FleetSearch
