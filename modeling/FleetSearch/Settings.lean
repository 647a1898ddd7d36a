/-! # Settings -/
namespace FleetSearch

/-- The index names, the page sizes and how much is logged. -/
structure Settings where
  devicesIndex : String
  deploymentsIndex : String
  defaultPerPage : Int
  mostPerPage : Int
  logLevel : String
  deriving DecidableEq, Repr

namespace Settings

def standard : Settings := ⟨"devices", "deployments", 20, 500, "info"⟩

def forTests : Settings := ⟨"test_devices", "test_deployments", 10, 100, "debug"⟩

instance : Inhabited Settings := ⟨standard⟩

/-- What is wrong with the settings, in the order in which it is told. -/
def problems (s : Settings) : List String :=
  (if s.devicesIndex.isEmpty then ["Devices index name cannot be empty"] else []) ++
    (if s.deploymentsIndex.isEmpty then ["Deployments index name cannot be empty"] else []) ++
    (if s.defaultPerPage ≤ 0 then ["Default page size must be positive"] else []) ++
    (if s.mostPerPage ≤ 0 then ["Max page size must be positive"] else []) ++
    (if s.mostPerPage < s.defaultPerPage then ["Default page size cannot exceed max page size"]
      else [])

end Settings

end FleetSearch
