import FleetSearch.Json.Record
import FleetSearch.Rule
import FleetSearch.Violation

/-! # Geographic filters

Points, and the two shapes around them that a search can be limited to. Requests carry the shapes in
the syntax in which the index takes them, so a filter is also its own clause. -/
namespace FleetSearch

open Decimal (Extended Format)

/-- A coordinate is held as a single; one that is too great for it is infinite. -/
abbrev Coordinate := Extended

namespace Coordinate

def ofPayload? : Payload → Option Coordinate
  | .number (.int n) => some (Extended.ofInt .single n)
  | .number (.double x) => some (Extended.ofBinary .single x)
  | .number (.single x) => some (.finite x)
  | _ => none

/-- An infinite coordinate has no text and is written as null. -/
def toJson : Option Coordinate → Json
  | some (.finite x) => .number (.single x)
  | _ => .null

/-- Between `-bound` and `bound`. -/
def rules (bound : Nat) : Option Coordinate → List (Option String)
  | none => [some Rule.absent]
  | some x =>
    [Rule.atLeastSingle x (Extended.ofInt .single (-(bound : Int))),
      Rule.atMostSingle x (Extended.ofInt .single bound)]

end Coordinate

namespace Violations

/-- A required part fails as blank where it is absent or holds nothing, and else with its own
violations. -/
def nestRequired {α : Type} (violations : Violations) (field : String) (isBlank : α → Bool)
    (check : α → Violations) : Option α → Violations
  | none => add violations field Rule.blank
  | some part =>
    if isBlank part then add violations field Rule.blank else nest violations field (check part)

end Violations

structure Point where
  latitude : Option Coordinate
  longitude : Option Coordinate
  deriving DecidableEq, Repr

namespace Point

def ofPayload? (payload : Payload) : Option Point := do
  let r ← payload.recordFrom? 2 ["lat", "lon"]
  return ⟨← r.optional "lat" Coordinate.ofPayload?, ← r.optional "lon" Coordinate.ofPayload?⟩

def toJson (p : Point) : Json :=
  .object [("lat", Coordinate.toJson p.latitude), ("lon", Coordinate.toJson p.longitude)]

def isBlank (p : Point) : Bool := p.latitude.isNone && p.longitude.isNone

def violations (p : Point) : Violations :=
  Violations.check (Violations.check [] "lat" (Coordinate.rules 90 p.latitude)) "lon"
    (Coordinate.rules 180 p.longitude)

end Point

/-- The surroundings of a point, out to a distance such as `10km`. -/
structure Circle where
  distance : String
  location : Option Point
  deriving DecidableEq, Repr

namespace Circle

def ofPayload? (payload : Payload) : Option Circle := do
  let r ← payload.record? ["distance", "location"]
  return ⟨← r.string "distance", ← r.optional "location" Point.ofPayload?⟩

def toJson (c : Circle) : Json :=
  .object [("distance", .string c.distance), ("location", Json.ofOptional Point.toJson c.location)]

def isBlank (c : Circle) : Bool := c.distance.isEmpty && c.location.isNone

def violations (c : Circle) : Violations :=
  Violations.nestRequired (Violations.check [] "distance" [Rule.required c.distance]) "location"
    Point.isBlank Point.violations c.location

end Circle

/-- A rectangle by two corners. -/
structure Rectangle where
  topLeft : Option Point
  bottomRight : Option Point
  deriving DecidableEq, Repr

namespace Rectangle

def ofPayload? (payload : Payload) : Option Rectangle := do
  let r ← payload.record? ["top_left", "bottom_right"]
  return ⟨← r.optional "top_left" Point.ofPayload?, ← r.optional "bottom_right" Point.ofPayload?⟩

def toJson (b : Rectangle) : Json :=
  .object [("top_left", Json.ofOptional Point.toJson b.topLeft),
    ("bottom_right", Json.ofOptional Point.toJson b.bottomRight)]

def isBlank (b : Rectangle) : Bool := b.topLeft.isNone && b.bottomRight.isNone

def violations (b : Rectangle) : Violations :=
  Violations.nestRequired
    (Violations.nestRequired [] "top_left" Point.isBlank Point.violations b.topLeft)
    "bottom_right" Point.isBlank Point.violations b.bottomRight

end Rectangle

/-- Matches what lies in a circle. -/
structure DistanceFilter where
  circle : Option Circle
  deriving DecidableEq, Repr

namespace DistanceFilter

def of (distance : String) (location : Point) : DistanceFilter := ⟨some ⟨distance, some location⟩⟩

def ofPayload? (payload : Payload) : Option DistanceFilter := do
  let r ← payload.record? ["geo_distance"]
  return ⟨← r.optional "geo_distance" Circle.ofPayload?⟩

def toJson (f : DistanceFilter) : Json :=
  .object (Json.memberOf "geo_distance" Circle.toJson f.circle)

def violations (f : DistanceFilter) : Violations :=
  Violations.nestRequired [] "geo_distance" Circle.isBlank Circle.violations f.circle

end DistanceFilter

/-- The rectangle of a box filter stands in for its location. -/
structure BoundingBox where
  location : Option Rectangle
  deriving DecidableEq, Repr

namespace BoundingBox

def ofPayload? (payload : Payload) : Option BoundingBox := do
  let r ← payload.record? ["location"]
  return ⟨← r.optional "location" Rectangle.ofPayload?⟩

def toJson (b : BoundingBox) : Json :=
  .object (Json.memberOf "location" Rectangle.toJson b.location)

def isBlank (b : BoundingBox) : Bool := b.location.isNone

def violations (b : BoundingBox) : Violations :=
  Violations.nestRequired [] "location" Rectangle.isBlank Rectangle.violations b.location

end BoundingBox

/-- Matches what lies in a rectangle. -/
structure BoxFilter where
  box : Option BoundingBox
  deriving DecidableEq, Repr

namespace BoxFilter

def of (topLeft bottomRight : Point) : BoxFilter := ⟨some ⟨some ⟨some topLeft, some bottomRight⟩⟩⟩

def ofPayload? (payload : Payload) : Option BoxFilter := do
  let r ← payload.record? ["geo_bounding_box"]
  return ⟨← r.optional "geo_bounding_box" BoundingBox.ofPayload?⟩

def toJson (f : BoxFilter) : Json :=
  .object (Json.memberOf "geo_bounding_box" BoundingBox.toJson f.box)

def violations (f : BoxFilter) : Violations :=
  Violations.nestRequired [] "geo_bounding_box" BoundingBox.isBlank BoundingBox.violations f.box

end BoxFilter

/-- The geographic part of a request. Of two filters the distance is used. -/
structure GeoFilters where
  distance : Option DistanceFilter
  box : Option BoxFilter
  deriving DecidableEq, Repr

namespace GeoFilters

def none : GeoFilters := ⟨.none, .none⟩

def isNone (g : GeoFilters) : Bool := g.distance.isNone && g.box.isNone

def fields : List String := ["geo_distance_filter", "geo_bounding_box_filter"]

def read? (r : Record) : Option GeoFilters := do
  return ⟨← r.optional "geo_distance_filter" DistanceFilter.ofPayload?,
    ← r.optional "geo_bounding_box_filter" BoxFilter.ofPayload?⟩

def members (g : GeoFilters) : List (String × Json) :=
  [("geo_distance_filter", Json.ofOptional DistanceFilter.toJson g.distance),
    ("geo_bounding_box_filter", Json.ofOptional BoxFilter.toJson g.box)]

/-- The filter that is used, as the clause it is. -/
def clause? (g : GeoFilters) : Option Json :=
  match g.distance, g.box with
  | some distance, _ => some distance.toJson
  | .none, some box => some box.toJson
  | .none, .none => .none

def check (violations : Violations) (g : GeoFilters) : Violations :=
  let nested := match g.distance with
    | some distance => Violations.nest violations "geo_distance_filter" distance.violations
    | .none => violations
  match g.box with
  | some box => Violations.nest nested "geo_bounding_box_filter" box.violations
  | .none => nested

end GeoFilters

end FleetSearch
