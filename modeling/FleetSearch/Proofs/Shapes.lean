import FleetSearch.Proofs.Coordinates
import FleetSearch.Proofs.Document
import FleetSearch.Proofs.Lookups
import FleetSearch.Proofs.Outcome

/-! # Shapes

Nothing is wrong with a geographic filter exactly if it has all its parts and both coordinates of each
point are on the globe. So of an accepted request only whole shapes are sent: the circle if one is
given, else the rectangle. A shape with a hole is refused, also where it would not have been sent. -/
namespace FleetSearch

open Decimal (Binary)

/-! ## Whole shapes -/

/-- A latitude between the poles and a longitude around the globe, the ends included. -/
structure OnGlobe (latitude longitude : Binary) : Prop where
  latitude : -90 ≤ latitude.value ∧ latitude.value ≤ 90
  longitude : -180 ≤ longitude.value ∧ longitude.value ≤ 180

def Point.Whole (p : Point) : Prop :=
  ∃ latitude longitude, p = ⟨some (.finite latitude), some (.finite longitude)⟩ ∧
    OnGlobe latitude longitude

/-- A circle with all its parts. -/
def DistanceFilter.about (distance : String) (latitude longitude : Binary) : DistanceFilter :=
  ⟨some ⟨distance, some ⟨some (.finite latitude), some (.finite longitude)⟩⟩⟩

/-- A rectangle with all its parts. -/
def BoxFilter.between (north west south east : Binary) : BoxFilter :=
  ⟨some ⟨some ⟨some ⟨some (.finite north), some (.finite west)⟩,
    some ⟨some (.finite south), some (.finite east)⟩⟩⟩⟩

def DistanceFilter.Whole (f : DistanceFilter) : Prop :=
  ∃ distance latitude longitude, f = .about distance latitude longitude ∧ distance ≠ "" ∧
    OnGlobe latitude longitude

def BoxFilter.Whole (f : BoxFilter) : Prop :=
  ∃ north west south east, f = .between north west south east ∧ OnGlobe north west ∧
    OnGlobe south east

/-- A blank part would also fail on its own, so being blank changes the message only. -/
theorem Violations.nestRequired_eq_nil_iff {α : Type} {isBlank : α → Bool} {check : α → Violations}
    (blank : ∀ part, isBlank part = true → check part ≠ []) (violations : Violations)
    (field : String) (part? : Option α) :
    nestRequired violations field isBlank check part? = [] ↔
      violations = [] ∧ ∃ part, part? = some part ∧ check part = [] := by
  cases part? with
  | none => simp [nestRequired, add, Table.insert_ne_nil]
  | some part =>
    rw [nestRequired]
    split
    · rename_i nothing
      simp [add, Table.insert_ne_nil, blank part nothing]
    · simp [nest_eq_nil_iff]

namespace Point

theorem violations_eq_nil_iff (p : Point) : p.violations = [] ↔ p.Whole := by
  obtain ⟨latitude, longitude⟩ := p
  simp only [violations, Violations.check_eq_nil_iff, true_and,
    Coordinate.rules_hold_iff 90 (by decide),
    Coordinate.rules_hold_iff 180 (by decide)]
  constructor
  · rintro ⟨⟨x, rfl, low, high⟩, y, rfl, west, east⟩
    exact ⟨x, y, rfl, ⟨low, high⟩, ⟨west, east⟩⟩
  · rintro ⟨x, y, same, latitudes, longitudes⟩
    cases same
    exact ⟨⟨x, rfl, latitudes⟩, y, rfl, longitudes⟩

theorem violations_of_isBlank {p : Point} (blank : p.isBlank = true) : p.violations ≠ [] := by
  rw [Ne, violations_eq_nil_iff]
  rintro ⟨x, y, rfl, _⟩
  cases blank

end Point

namespace Circle

theorem violations_eq_nil_iff (c : Circle) :
    c.violations = [] ↔ c.distance ≠ "" ∧ ∃ location, c.location = some location ∧ location.Whole := by
  simp [violations, Violations.nestRequired_eq_nil_iff fun _ => Point.violations_of_isBlank,
    Violations.check_eq_nil_iff, Rule.required_eq_none_iff, Point.violations_eq_nil_iff]

theorem violations_of_isBlank {c : Circle} (blank : c.isBlank = true) : c.violations ≠ [] := by
  rw [Ne, violations_eq_nil_iff]
  rintro ⟨_, location, located, _⟩
  simp [isBlank, located] at blank

end Circle

namespace Rectangle

theorem violations_eq_nil_iff (b : Rectangle) : b.violations = [] ↔
    ∃ topLeft bottomRight, b = ⟨some topLeft, some bottomRight⟩ ∧
      topLeft.Whole ∧ bottomRight.Whole := by
  obtain ⟨topLeft, bottomRight⟩ := b
  simp only [violations, Violations.nestRequired_eq_nil_iff fun _ => Point.violations_of_isBlank,
    true_and, Point.violations_eq_nil_iff]
  constructor
  · rintro ⟨⟨p, rfl, first⟩, q, rfl, second⟩
    exact ⟨p, q, rfl, first, second⟩
  · rintro ⟨p, q, same, first, second⟩
    cases same
    exact ⟨⟨p, rfl, first⟩, q, rfl, second⟩

theorem violations_of_isBlank {b : Rectangle} (blank : b.isBlank = true) : b.violations ≠ [] := by
  rw [Ne, violations_eq_nil_iff]
  rintro ⟨p, q, rfl, _⟩
  cases blank

end Rectangle

namespace BoundingBox

theorem violations_eq_nil_iff (b : BoundingBox) : b.violations = [] ↔
    ∃ topLeft bottomRight, b = ⟨some ⟨some topLeft, some bottomRight⟩⟩ ∧
      topLeft.Whole ∧ bottomRight.Whole := by
  obtain ⟨location⟩ := b
  simp only [violations, Violations.nestRequired_eq_nil_iff fun _ => Rectangle.violations_of_isBlank,
    true_and, Rectangle.violations_eq_nil_iff]
  constructor
  · rintro ⟨_, rfl, p, q, rfl, corners⟩
    exact ⟨p, q, rfl, corners⟩
  · rintro ⟨p, q, same, corners⟩
    cases same
    exact ⟨_, rfl, p, q, rfl, corners⟩

theorem violations_of_isBlank {b : BoundingBox} (blank : b.isBlank = true) : b.violations ≠ [] := by
  rw [Ne, violations_eq_nil_iff]
  rintro ⟨p, q, rfl, _⟩
  cases blank

end BoundingBox

theorem DistanceFilter.violations_eq_nil_iff (f : DistanceFilter) : f.violations = [] ↔ f.Whole := by
  obtain ⟨circle⟩ := f
  simp only [violations, Violations.nestRequired_eq_nil_iff fun _ => Circle.violations_of_isBlank,
    true_and, Circle.violations_eq_nil_iff]
  constructor
  · rintro ⟨⟨distance, _⟩, rfl, named, _, rfl, latitude, longitude, rfl, center⟩
    exact ⟨distance, latitude, longitude, rfl, named, center⟩
  · rintro ⟨distance, latitude, longitude, same, named, center⟩
    cases same
    exact ⟨_, rfl, named, _, rfl, latitude, longitude, rfl, center⟩

theorem BoxFilter.violations_eq_nil_iff (f : BoxFilter) : f.violations = [] ↔ f.Whole := by
  obtain ⟨box⟩ := f
  simp only [violations, Violations.nestRequired_eq_nil_iff fun _ => BoundingBox.violations_of_isBlank,
    true_and, BoundingBox.violations_eq_nil_iff]
  constructor
  · rintro ⟨_, rfl, _, _, rfl, ⟨north, west, rfl, topLeft⟩, south, east, rfl, bottomRight⟩
    exact ⟨north, west, south, east, rfl, topLeft, bottomRight⟩
  · rintro ⟨north, west, south, east, same, topLeft, bottomRight⟩
    cases same
    exact ⟨_, rfl, _, _, rfl, ⟨north, west, rfl, topLeft⟩, south, east, rfl, bottomRight⟩

/-! ## What is written of a shape -/

namespace Json

/-- A circle as it is written, with all its members. -/
def circle (distance : String) (latitude longitude : Binary) : Json :=
  .object [("geo_distance", .object [("distance", .string distance),
    ("location", .object [
      ("lat", .number (.single latitude)), ("lon", .number (.single longitude))])])]

/-- A rectangle as it is written, with all its members. -/
def rectangle (north west south east : Binary) : Json :=
  .object [("geo_bounding_box", .object [("location", .object [
    ("top_left", .object [("lat", .number (.single north)), ("lon", .number (.single west))]),
    ("bottom_right", .object [("lat", .number (.single south)), ("lon", .number (.single east))])])])]

/-- No path leads to a null. -/
def NoNull (value : Json) : Prop := ∀ path, value.at? path ≠ some .null

theorem mem_of_member? {value inner : Json} {name : String} (found : value.member? name = some inner) :
    (name, inner) ∈ value.members := by
  unfold member? at found
  split at found
  · rename_i member only
    cases found
    obtain ⟨listed, named⟩ := List.mem_filter.mp (only ▸ List.mem_singleton_self member)
    rwa [← eq_of_beq named]
  · cases found

theorem noNull_of_members {value : Json} (present : value ≠ .null)
    (inner : ∀ member ∈ value.members, member.2.NoNull) : value.NoNull := by
  rintro (_ | ⟨name, path⟩) found
  · exact present (Option.some.inj found)
  · obtain ⟨below, member, found⟩ := Option.bind_eq_some_iff.mp found
    exact inner _ (mem_of_member? member) path found

theorem noNull_number (n : Number) : (number n).NoNull :=
  noNull_of_members nofun nofun

theorem noNull_string (s : String) : (string s).NoNull :=
  noNull_of_members nofun nofun

theorem noNull_object {members : List (String × Json)}
    (inner : ∀ member ∈ members, member.2.NoNull) : (object members).NoNull :=
  noNull_of_members nofun inner

theorem noNull_singleton (name : String) {value : Json} (inner : value.NoNull) :
    (object [(name, value)]).NoNull :=
  noNull_object (List.forall_mem_singleton.mpr inner)

theorem noNull_pair (first second : String) {a b : Json} (left : a.NoNull) (right : b.NoNull) :
    (object [(first, a), (second, b)]).NoNull :=
  noNull_object (List.forall_mem_cons.mpr ⟨left, List.forall_mem_singleton.mpr right⟩)

theorem noNull_point (latitude longitude : Binary) :
    (object [("lat", .number (.single latitude)), ("lon", .number (.single longitude))]).NoNull :=
  noNull_pair _ _ (noNull_number _) (noNull_number _)

theorem noNull_circle (distance : String) (latitude longitude : Binary) :
    (circle distance latitude longitude).NoNull :=
  noNull_singleton _ (noNull_pair _ _ (noNull_string distance) (noNull_point latitude longitude))

theorem noNull_rectangle (north west south east : Binary) :
    (rectangle north west south east).NoNull :=
  noNull_singleton _ (noNull_singleton _
    (noNull_pair _ _ (noNull_point north west) (noNull_point south east)))

end Json

/-! ## Where a shape is sent -/

/-- What stands for the shapes of a request in its condition: the circle if there is one, else the
rectangle, with the distance and the coordinates that were given. -/
structure GeoFilters.Sent (g : GeoFilters) (condition : Json) : Prop where
  absent_iff : "filter" ∉ condition.names ↔ g.distance = .none ∧ g.box = .none
  circle : ∀ f, g.distance = some f → ∃ distance latitude longitude,
    f = .about distance latitude longitude ∧ distance ≠ "" ∧ OnGlobe latitude longitude ∧
      condition.member? "filter" = some (.circle distance latitude longitude)
  rectangle : g.distance = .none → ∀ f, g.box = some f → ∃ north west south east,
    f = .between north west south east ∧ OnGlobe north west ∧ OnGlobe south east ∧
      condition.member? "filter" = some (.rectangle north west south east)
  noNull : ∀ value, condition.member? "filter" = some value → value.NoNull

theorem Query.lookup_clausesMember {name other : String} (apart : name ≠ other) (values : List Json) :
    (clausesMember other values).lookup name = none := by
  unfold clausesMember
  split
  · rfl
  · rw [Table.lookup_singleton, if_neg apart]

theorem Query.lookup_parts (q : Query) : q.parts.lookup "filter" = q.geo.clause? := by
  rw [parts, List.lookup_append, List.lookup_append, lookup_clausesMember (by decide),
    lookup_clausesMember (by decide)]
  cases q.geo.clause? <;> rfl

namespace GeoFilters

theorem clause?_eq_none_iff (g : GeoFilters) :
    g.clause? = .none ↔ g.distance = .none ∧ g.box = .none := by
  obtain ⟨_ | f, _ | b⟩ := g <;> simp [clause?]

theorem whole_distance {g : GeoFilters} (valid : g.violations = []) {f : DistanceFilter}
    (given : g.distance = some f) : f.Whole := by
  obtain ⟨_, circles⟩ := List.append_eq_nil_iff.mp valid
  rw [given] at circles
  exact f.violations_eq_nil_iff.mp (by simpa [Violations.entry] using circles)

theorem whole_box {g : GeoFilters} (valid : g.violations = []) {f : BoxFilter}
    (given : g.box = some f) : f.Whole := by
  obtain ⟨boxes, _⟩ := List.append_eq_nil_iff.mp valid
  rw [given] at boxes
  exact f.violations_eq_nil_iff.mp (by simpa [Violations.entry] using boxes)

theorem sent_of_query {q : Query} (valid : q.geo.violations = []) :
    q.geo.Sent (.object q.parts) := by
  have slot : (Json.object q.parts).member? "filter" = q.geo.clause? := by
    rw [Json.member?_object q.parts_nodup, q.lookup_parts]
  have circle : ∀ f, q.geo.distance = some f → ∃ distance latitude longitude,
      f = .about distance latitude longitude ∧ distance ≠ "" ∧ OnGlobe latitude longitude ∧
        q.geo.clause? = some (.circle distance latitude longitude) := by
    intro f given
    obtain ⟨distance, latitude, longitude, rfl, named, center⟩ := whole_distance valid given
    refine ⟨distance, latitude, longitude, rfl, named, center, ?_⟩
    rw [clause?, given]
    rfl
  have rectangle : q.geo.distance = .none → ∀ f, q.geo.box = some f → ∃ north west south east,
      f = .between north west south east ∧ OnGlobe north west ∧ OnGlobe south east ∧
        q.geo.clause? = some (.rectangle north west south east) := by
    intro no_circle f given
    obtain ⟨north, west, south, east, rfl, topLeft, bottomRight⟩ := whole_box valid given
    refine ⟨north, west, south, east, rfl, topLeft, bottomRight, ?_⟩
    rw [clause?, no_circle, given]
    rfl
  constructor
  case absent_iff =>
    rw [← clause?_eq_none_iff, ← q.lookup_parts, Table.lookup_eq_none_iff]
    rfl
  case circle =>
    rw [slot]
    exact circle
  case rectangle =>
    rw [slot]
    exact rectangle
  case noNull =>
    rw [slot]
    intro value used
    cases round : q.geo.distance with
    | some f =>
      obtain ⟨distance, latitude, longitude, _, _, _, sent⟩ := circle f round
      cases sent.symm.trans used
      exact Json.noNull_circle distance latitude longitude
    | none =>
      cases boxed : q.geo.box with
      | some f =>
        obtain ⟨north, west, south, east, _, _, _, sent⟩ := rectangle round f boxed
        cases sent.symm.trans used
        exact Json.noNull_rectangle north west south east
      | none =>
        cases ((clause?_eq_none_iff _).mpr ⟨round, boxed⟩).symm.trans used

end GeoFilters

/-! ## Where a shape is refused -/

namespace Request

/-- The violations of the shapes are told with those of the terms. -/
theorem violations_of_geo {r : Request} (faulty : r.geo.violations ≠ []) :
    ∃ terms, (∀ e ∈ terms, e.1 = "aggregations") ∧ r.violations = terms ++ r.geo.violations := by
  have first_cons {part : Violations} (rest : List Violations) (faulty : part ≠ []) :
      Violations.first (part :: rest) = part := by
    simp [Violations.first, faulty]
  rw [violations_eq_first]
  cases r with
  | deviceSearch search => exact ⟨[], List.forall_mem_nil _, first_cons _ faulty⟩
  | deviceSummary summary =>
    exact ⟨Term.topViolations summary.aggregations, fun _ => Term.fst_of_mem_topViolations,
      first_cons _ (List.append_ne_nil_of_right_ne_nil _ faulty)⟩
  | deploymentSearch _ => exact absurd rfl faulty
  | deploymentSummary _ => exact absurd rfl faulty

/-- Whatever else is wrong, a violation of the shapes is told. -/
theorem get?_violations_of_geo {r : Request} {field : String} (apart : field ≠ "aggregations")
    {violation : Violation} (told : r.geo.violations.get? field = some violation) :
    r.violations.get? field = some violation := by
  have faulty : r.geo.violations ≠ [] := by
    intro none
    rw [none] at told
    cases told
  obtain ⟨terms, named, all⟩ := violations_of_geo faulty
  have untold : terms.get? field = none := by
    rw [Violations.get?, Table.lookup_eq_none_iff, List.mem_map]
    rintro ⟨e, member, rfl⟩
    exact apart (named e member)
  rw [all, Violations.get?_append, untold, Option.none_or, told]

/-- The request is not answered, and this field of it is told with its own violations. -/
def Refused (r : Request) (s : Settings) (context : Context) (field : String) (inner : Violations) :
    Prop :=
  s.compile context r = .error (.invalid r.violations) ∧
    r.violations.get? field = some (.nested inner)

theorem refused_of_geo {r : Request} {field : String} (apart : field ≠ "aggregations")
    {inner : Violations} (told : r.geo.violations.get? field = some (.nested inner)) (s : Settings)
    (context : Context) : r.Refused s context field inner := by
  have named := get?_violations_of_geo apart told
  refine ⟨Settings.compile_of_invalid ?_ s context, named⟩
  intro valid
  rw [valid] at named
  cases named

end Request

namespace GeoFilters

theorem get?_violations_distance {g : GeoFilters} {f : DistanceFilter} (given : g.distance = some f)
    (faulty : f.violations ≠ []) :
    g.violations.get? "geo_distance_filter" = some (.nested f.violations) := by
  rw [violations, Violations.get?_append, Violations.get?_entry_of_ne (by decide), given,
    Option.none_or]
  exact Violations.get?_entry _ faulty

theorem get?_violations_box {g : GeoFilters} {f : BoxFilter} (given : g.box = some f)
    (faulty : f.violations ≠ []) :
    g.violations.get? "geo_bounding_box_filter" = some (.nested f.violations) := by
  rw [violations, Violations.get?_append, given, Option.elim_some, Violations.get?_entry _ faulty,
    Option.some_or]

end GeoFilters

/-- A filter is valid exactly if it is whole. An accepted request has no shape where none was given,
else the circle if there is one and the rectangle if there is none, with all members, no null and both
coordinates of each point on the globe. And a shape that is not whole makes its request fail, used or
not. -/
theorem only_whole_shapes :
    (∀ f : DistanceFilter, f.violations = [] ↔ f.Whole) ∧
    (∀ f : BoxFilter, f.violations = [] ↔ f.Whole) ∧
    ∀ (s : Settings) (context : Context) (r : Request),
      (∀ found, s.compile context r = .ok found → ∃ condition,
        found.body.toJson.at? ["query", "bool"] = some condition ∧ r.geo.Sent condition) ∧
      (∀ f, r.geo.distance = some f → ¬ f.Whole →
        r.Refused s context "geo_distance_filter" f.violations) ∧
      (∀ f, r.geo.box = some f → ¬ f.Whole →
        r.Refused s context "geo_bounding_box_filter" f.violations) := by
  refine ⟨DistanceFilter.violations_eq_nil_iff, BoxFilter.violations_eq_nil_iff, ?_⟩
  intro s context r
  refine ⟨?_, ?_, ?_⟩
  · intro found accepted
    obtain ⟨valid, filters, _, rfl⟩ := (Settings.compile_eq_ok_iff s context r found).mp accepted
    -- The violations of the shapes would be among those of the request, which has none.
    have whole : (r.body s context filters).geo.violations = [] := by
      by_contra faulty
      obtain ⟨terms, _, all⟩ := Request.violations_of_geo (r := r) faulty
      exact faulty (List.append_eq_nil_iff.mp (all ▸ valid)).2
    refine ⟨_, ?_, GeoFilters.sent_of_query whole⟩
    rw [Json.at?, Query.member?_query rfl]
    rfl
  · intro f given broken
    have faulty : f.violations ≠ [] := (not_congr f.violations_eq_nil_iff).mpr broken
    exact Request.refused_of_geo (by decide) (GeoFilters.get?_violations_distance given faulty) s
      context
  · intro f given broken
    have faulty : f.violations ≠ [] := (not_congr f.violations_eq_nil_iff).mpr broken
    exact Request.refused_of_geo (by decide) (GeoFilters.get?_violations_box given faulty) s context

namespace Point

/-- A point told in halves of a degree. -/
def harbour : Point := ⟨some (.finite ⟨false, 107, -1⟩), some (.finite ⟨true, 20, -1⟩)⟩

/-- A longitude too great for a single was read as infinite. -/
def nowhere : Point := ⟨some (.finite ⟨false, 45, 0⟩), some (.infinite false)⟩

end Point

/-- Devices around the harbour, in a box besides. -/
def DeviceSearch.moored (corner : Point) : DeviceSearch :=
  { DeviceSearch.ofPage 1 20 with
    geo := ⟨some (.of "10km" .harbour), some (.of .harbour corner)⟩ }

/-- The circle is sent and the box is not. But the box still has to be whole, and an infinite
longitude, which would be written as null, is none. -/
theorem only_whole_shapes_moored :
    DistanceFilter.Whole (.of "10km" .harbour) ∧ ¬ BoxFilter.Whole (.of .harbour .nowhere) ∧
    (∃ found, Settings.standard.compile ⟨"acme", []⟩ (.deviceSearch (.moored .harbour)) = .ok found ∧
      ∃ condition, found.body.toJson.at? ["query", "bool"] = some condition ∧
        condition.member? "filter" = some (.object [("geo_distance", .object [
          ("distance", .string "10km"), ("location", .object [
            ("lat", .number (.single ⟨false, 107, -1⟩)),
            ("lon", .number (.single ⟨true, 20, -1⟩))])])])) ∧
    (Request.deviceSearch (.moored .nowhere)).Refused .standard ⟨"acme", []⟩ "geo_bounding_box_filter"
      (BoxFilter.of .harbour .nowhere).violations := by
  obtain ⟨distance_iff, box_iff, compiled⟩ := only_whole_shapes
  have broken : ¬ BoxFilter.Whole (.of .harbour .nowhere) := by
    rintro ⟨north, west, south, east, same, _⟩
    cases same
  refine ⟨(distance_iff _).mp (by decide), broken, ?_, ?_⟩
  · obtain ⟨found, accepted⟩ : ∃ found, Settings.standard.compile ⟨"acme", []⟩
        (.deviceSearch (.moored .harbour)) = .ok found := ⟨_, rfl⟩
    obtain ⟨condition, placed, sent⟩ := (compiled _ _ _).1 found accepted
    obtain ⟨distance, latitude, longitude, given, _, _, sent⟩ := sent.circle _ rfl
    cases given
    exact ⟨found, accepted, condition, placed, sent⟩
  · exact (compiled _ _ _).2.2 _ rfl broken

end FleetSearch
