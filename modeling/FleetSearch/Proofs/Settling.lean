import FleetSearch.Proofs.Forms
import FleetSearch.Proofs.Values
import FleetSearch.Summary
import Mathlib.Data.Option.Basic

/-! # Settled requests

A request may be sent in many ways, but once it has been read and written it stays as it is written:
requests and all their parts are settled in their forms. Only coordinates that are not finite are
lost on the way. -/
namespace FleetSearch

open Form (record_settles)
open Fields (one_settled one_settles both_settled both_settles as_settled as_settles)

/-! ## Operands -/

namespace Operand

def form : Form Operand := ⟨ofPayload?, toJson, fun _ => []⟩

theorem form_settles : form.Settles := by
  intro payload operand known
  obtain ⟨value, read, rfl⟩ := Option.map_eq_some_iff.mp known
  refine Form.settled_of_same ?_ rfl
  change (Payload.ofJson (toJson (ofJson value))).value?.map ofJson = some (ofJson value)
  rw [toJson_ofJson, Payload.value?_ofJson read, Option.map_some]

end Operand

/-! ## Parts of both domains -/

/-- What is written for a scope tells which scope it is. -/
class Scoping.Lawful (σ : Type) [Scoping σ] : Prop where
  ofText_text : ∀ scope : σ, Scoping.ofText (Scoping.text scope) = scope
  text_of_uncarried : Scoping.carried σ = false → ∀ scope : σ, Scoping.text scope = ""

instance : Scoping.Lawful Scope := ⟨fun _ => rfl, nofun⟩

instance : Scoping.Lawful Flat := ⟨fun _ => rfl, fun _ _ => rfl⟩

variable {σ : Type} [Scoping σ]

namespace Scoping

theorem fields_sublist (σ : Type) [Scoping σ] : (fields σ).Sublist ["scope"] := by
  unfold fields
  split
  · exact .refl _
  · exact List.nil_sublist _

def parts (σ : Type) [Scoping σ] : Fields σ where
  names := fields σ
  read := read?
  members := members
  coordinates _ := []
  distinct := (List.nodup_singleton "scope").sublist (fields_sublist σ)
  within scope := by
    unfold members fields
    split <;> exact .refl _

theorem parts_settled [Lawful σ] (scope : σ) : (parts σ).Settled scope := by
  refine ⟨scope, ?_, rfl, iff_of_true rfl (List.forall_mem_nil _)⟩
  intro r gives
  by_cases carried : carried σ
  · have got := gives "scope" (by simp [parts, fields, carried])
    simp only [parts, members, carried, if_true, List.lookup_cons_self, Option.map_some] at got
    simp [parts, read?, carried, Record.string, Record.field, got, Payload.ofJson, Payload.string?,
      Lawful.ofText_text]
  · have blank := Lawful.text_of_uncarried (Bool.eq_false_iff.mpr carried) scope
    have same : ofText "" = scope := by rw [← blank, Lawful.ofText_text]
    simp [parts, read?, carried, same]

end Scoping

namespace Attribute

def form (σ : Type) [Scoping σ] : Form (Attribute σ) := ⟨ofPayload?, toJson, fun _ => []⟩

theorem fields_sublist (σ : Type) [Scoping σ] : (fields σ).Sublist ["scope", "attribute"] :=
  (Scoping.fields_sublist σ).append_right ["attribute"]

def parts (σ : Type) [Scoping σ] : Fields (Attribute σ) :=
  Fields.as ((Scoping.parts σ).both (.one "attribute" "" .text)
      (List.Nodup.sublist (fields_sublist σ) (by decide)))
  ⟨fun (scope, name) => ⟨scope, name⟩, fun a => (a.scope, a.name), fun _ => rfl, fun _ => rfl⟩

theorem parts_read (r : Record) : (parts σ).read r = read? r := by
  simp [parts, read?, Scoping.parts, Record.string, Option.map_bind]

theorem parts_settled [Scoping.Lawful σ] (a : Attribute σ) : (parts σ).Settled a :=
  as_settled (both_settled (Scoping.parts_settled _) (one_settled (Form.text_settled _)))

theorem form_eq : form σ = .record (parts σ) 0 :=
  Form.eq_record (fun _ => rfl) parts_read (fun _ => rfl) (fun _ => rfl)

theorem form_settles [Scoping.Lawful σ] : (form σ).Settles := by
  rw [form_eq]
  exact record_settles fun _ a _ => parts_settled a

end Attribute

namespace SortKey

def form (σ : Type) [Scoping σ] : Form (SortKey σ) := ⟨ofPayload?, toJson, fun _ => []⟩

def parts (σ : Type) [Scoping σ] : Fields (SortKey σ) :=
  Fields.as ((Attribute.parts σ).both (.one "order" "" .text)
      (List.Nodup.sublist ((Attribute.fields_sublist σ).append_right _) (by decide)))
  ⟨fun (subject, order) => ⟨subject, order⟩, fun k => (k.subject, k.order), fun _ => rfl,
    fun _ => rfl⟩

theorem form_eq : form σ = .record (parts σ) 0 := by
  refine Form.eq_record (fun _ => rfl) (fun r => ?_) (fun _ => rfl) (fun _ => rfl)
  simp [parts, Attribute.parts_read, Record.string, Option.map_bind]

theorem form_settles [Scoping.Lawful σ] : (form σ).Settles := by
  rw [form_eq]
  exact record_settles (as_settles (both_settles (fun _ a _ => Attribute.parts_settled a)
    (Fields.text_settles "order")))

end SortKey

namespace Predicate

def form (σ : Type) [Scoping σ] : Form (Predicate σ) := ⟨ofPayload?, toJson, fun _ => []⟩

def parts (σ : Type) [Scoping σ] : Fields (Predicate σ) :=
  Fields.as ((Attribute.parts σ).both
      ((Fields.one "type" "" .text).both <| .one "value" default Operand.form)
      (List.Nodup.sublist ((Attribute.fields_sublist σ).append_right _) (by decide)))
  ⟨fun (subject, operator, operand) => ⟨subject, operator, operand⟩,
    fun p => (p.subject, p.operator, p.operand), fun _ => rfl, fun _ => rfl⟩

theorem form_eq : form σ = .record (parts σ) 0 := by
  refine Form.eq_record (fun _ => rfl) (fun r => ?_) (fun _ => rfl) (fun _ => rfl)
  simp [parts, Attribute.parts_read, Record.string, Operand.form, Option.map_bind,
    Option.bind_assoc]

theorem form_settles [Scoping.Lawful σ] : (form σ).Settles := by
  rw [form_eq]
  refine record_settles (as_settles (both_settles (fun _ a _ => Attribute.parts_settled a) ?_))
  exact both_settles (Fields.text_settles "type")
    (one_settles (Form.settled_of_same rfl rfl) Operand.form_settles)

end Predicate

namespace Term

def form (σ : Type) [Scoping σ] : Form (Term σ) := ⟨ofPayload?, toJson, fun _ => []⟩

theorem fields_sublist (σ : Type) [Scoping σ] :
    (fields σ).Sublist ["name", "attribute", "scope", "limit", "aggregations"] :=
  ((Scoping.fields_sublist σ).append_left ["name", "attribute"]).append_right
    ["limit", "aggregations"]

def parts (σ : Type) [Scoping σ] : Fields (Term σ) :=
  Fields.as ((Fields.one "name" "" .text).both
      ((Fields.one "attribute" "" .text).both
        ((Scoping.parts σ).both
          ((Fields.one "limit" 0 .whole).both (.one "aggregations" [] (form σ).list)
            (show ["limit", "aggregations"].Nodup by decide))
          (List.Nodup.sublist ((fields_sublist σ).drop 2) (by decide)))
        (List.Nodup.sublist ((fields_sublist σ).drop 1) (by decide)))
      (List.Nodup.sublist (fields_sublist σ) (by decide)))
  ⟨fun (name, subject, scope, limit, children) => mk name ⟨scope, subject⟩ limit children,
    fun t => (t.name, t.subject.name, t.subject.scope, t.limit, t.children),
    fun _ => rfl, fun ⟨_, _, _, _⟩ => rfl⟩

theorem listJson_eq_map (terms : List (Term σ)) : listJson terms = terms.map toJson := by
  induction terms with
  | nil => rfl
  | cons term rest ih => rw [listJson, ih, List.map_cons]

theorem form_eq : form σ = .record (parts σ) 0 := by
  refine Form.eq_record ofPayload?_eq (fun r => ?_) ?_ ?_
  · simp only [parts, form, Scoping.parts, Attribute.read?, Record.string, Record.int64,
      Record.list, Fields.as_read, Fields.both_read, Fields.one_read, Form.text_read,
      Form.whole_read, Form.list_read, Option.map_bind, Option.bind_assoc, Option.bind_eq_bind,
      Option.pure_def, Option.bind_some, Option.map_some, Function.comp_def]
    refine congrArg _ (funext fun name => ?_)
    -- The scope is read before the name of the attribute and written after it.
    exact Option.bind_comm _ _
  · rintro ⟨name, subject, limit, children⟩
    simp only [form, toJson, listJson_eq_map]
    rfl
  · intro t
    simp [form, parts, Scoping.parts]

/-- By induction on the term: its children were read like itself. -/
theorem form_settled [Scoping.Lawful σ] (t : Term σ) :
    ∀ payload, (form σ).read payload = some t → (form σ).Settled t := by
  induction t using Term.induction with
  | node name subject limit children ih =>
    intro payload known
    rw [form_eq] at known
    obtain ⟨r, _, known⟩ := Option.bind_eq_some_iff.mp known
    obtain ⟨_, known⟩ := Fields.read_of_both (Fields.read_of_as known)
    obtain ⟨_, known⟩ := Fields.read_of_both known
    obtain ⟨_, known⟩ := Fields.read_of_both known
    obtain ⟨limited, below⟩ := Fields.read_of_both known
    have settled : ∀ child ∈ children, (form σ).Settled child := by
      intro child member
      simp only [Fields.one, Record.field] at below
      split at below
      · cases below
        cases member
      · obtain ⟨item, read⟩ := Form.exists_read_of_mem_list below member
        exact ih child member item read
    rw [form_eq]
    refine Form.record_settled (as_settled ?_)
    refine both_settled (one_settled (Form.text_settled name)) ?_
    refine both_settled (one_settled (Form.text_settled subject.name)) ?_
    refine both_settled (Scoping.parts_settled subject.scope) ?_
    refine both_settled ?_ (one_settled (Form.list_settled settled))
    exact Fields.whole_settles "limit" r limit limited

theorem form_settles [Scoping.Lawful σ] : (form σ).Settles :=
  fun payload t => form_settled t payload

end Term

/-! ## Geographic filters -/

namespace Point

def coordinates (p : Point) : List Coordinate := p.latitude.toList ++ p.longitude.toList

def form : Form Point := ⟨ofPayload?, toJson, coordinates⟩

def parts : Fields Point :=
  Fields.as ((Fields.one "lat" none .coordinate).both <| .one "lon" none .coordinate)
  ⟨fun (latitude, longitude) => ⟨latitude, longitude⟩, fun p => (p.latitude, p.longitude),
    fun _ => rfl, fun _ => rfl⟩

theorem form_eq : form = .record parts 2 := by
  refine Form.eq_record (fun _ => rfl) (fun r => ?_) (fun _ => rfl) (fun _ => rfl)
  simp [parts, Record.optional, Option.map_bind]

theorem form_settles : form.Settles := by
  rw [form_eq]
  exact record_settles (as_settles (both_settles (Fields.coordinate_settles "lat")
    (Fields.coordinate_settles "lon")))

end Point

namespace Circle

def coordinates (c : Circle) : List Coordinate := c.location.toList.flatMap Point.coordinates

def form : Form Circle := ⟨ofPayload?, toJson, coordinates⟩

def parts : Fields Circle :=
  Fields.as ((Fields.one "distance" "" .text).both <| .one "location" none Point.form.optional)
  ⟨fun (distance, location) => ⟨distance, location⟩, fun c => (c.distance, c.location),
    fun _ => rfl, fun _ => rfl⟩

theorem form_eq : form = .record parts 0 := by
  refine Form.eq_record (fun _ => rfl) (fun r => ?_) (fun _ => rfl) (fun _ => rfl)
  simp [parts, Point.form, Record.string, Record.optional, Option.map_bind]

theorem form_settles : form.Settles := by
  rw [form_eq]
  exact record_settles (as_settles (both_settles (Fields.text_settles "distance")
    (Fields.optional_settles "location" (fun _ => nofun) Point.form_settles)))

end Circle

namespace Rectangle

def coordinates (b : Rectangle) : List Coordinate :=
  b.topLeft.toList.flatMap Point.coordinates ++ b.bottomRight.toList.flatMap Point.coordinates

def form : Form Rectangle := ⟨ofPayload?, toJson, coordinates⟩

def parts : Fields Rectangle :=
  Fields.as ((Fields.one "top_left" none Point.form.optional).both <|
      .one "bottom_right" none Point.form.optional)
  ⟨fun (topLeft, bottomRight) => ⟨topLeft, bottomRight⟩, fun b => (b.topLeft, b.bottomRight),
    fun _ => rfl, fun _ => rfl⟩

theorem form_eq : form = .record parts 0 := by
  refine Form.eq_record (fun _ => rfl) (fun r => ?_) (fun _ => rfl) (fun _ => rfl)
  simp [parts, Point.form, Record.optional, Option.map_bind]

theorem form_settles : form.Settles := by
  rw [form_eq]
  exact record_settles (as_settles (both_settles
    (Fields.optional_settles "top_left" (fun _ => nofun) Point.form_settles)
    (Fields.optional_settles "bottom_right" (fun _ => nofun) Point.form_settles)))

end Rectangle

namespace DistanceFilter

def coordinates (f : DistanceFilter) : List Coordinate := f.circle.toList.flatMap Circle.coordinates

def form : Form DistanceFilter := ⟨ofPayload?, toJson, coordinates⟩

def parts : Fields DistanceFilter :=
  (Fields.skipped "geo_distance" Circle.form).as
  ⟨fun circle => ⟨circle⟩, fun f => f.circle, fun _ => rfl, fun _ => rfl⟩

theorem form_eq : form = .record parts 0 := by
  refine Form.eq_record (fun _ => rfl) (fun r => ?_) (fun _ => rfl) (fun _ => rfl)
  simp [parts, Circle.form, Option.map_eq_bind]

theorem form_settles : form.Settles := by
  rw [form_eq]
  exact record_settles (as_settles (Fields.skipped_settles (fun _ => nofun) Circle.form_settles))

end DistanceFilter

namespace BoundingBox

def coordinates (b : BoundingBox) : List Coordinate :=
  b.location.toList.flatMap Rectangle.coordinates

def form : Form BoundingBox := ⟨ofPayload?, toJson, coordinates⟩

def parts : Fields BoundingBox :=
  (Fields.skipped "location" Rectangle.form).as
  ⟨fun location => ⟨location⟩, fun b => b.location, fun _ => rfl, fun _ => rfl⟩

theorem form_eq : form = .record parts 0 := by
  refine Form.eq_record (fun _ => rfl) (fun r => ?_) (fun _ => rfl) (fun _ => rfl)
  simp [parts, Rectangle.form, Option.map_eq_bind]

theorem form_settles : form.Settles := by
  rw [form_eq]
  exact record_settles (as_settles (Fields.skipped_settles (fun _ => nofun) Rectangle.form_settles))

end BoundingBox

namespace BoxFilter

def coordinates (f : BoxFilter) : List Coordinate := f.box.toList.flatMap BoundingBox.coordinates

def form : Form BoxFilter := ⟨ofPayload?, toJson, coordinates⟩

def parts : Fields BoxFilter :=
  (Fields.skipped "geo_bounding_box" BoundingBox.form).as
  ⟨fun box => ⟨box⟩, fun f => f.box, fun _ => rfl, fun _ => rfl⟩

theorem form_eq : form = .record parts 0 := by
  refine Form.eq_record (fun _ => rfl) (fun r => ?_) (fun _ => rfl) (fun _ => rfl)
  simp [parts, BoundingBox.form, Option.map_eq_bind]

theorem form_settles : form.Settles := by
  rw [form_eq]
  exact record_settles (as_settles
    (Fields.skipped_settles (fun _ => nofun) BoundingBox.form_settles))

end BoxFilter

namespace GeoFilters

def coordinates (g : GeoFilters) : List Coordinate :=
  g.distance.toList.flatMap DistanceFilter.coordinates ++ g.box.toList.flatMap BoxFilter.coordinates

def parts : Fields GeoFilters :=
  Fields.as ((Fields.one "geo_distance_filter" Option.none DistanceFilter.form.optional).both <|
      .one "geo_bounding_box_filter" Option.none BoxFilter.form.optional)
  ⟨fun (distance, box) => ⟨distance, box⟩, fun g => (g.distance, g.box), fun _ => rfl, fun _ => rfl⟩

theorem parts_read (r : Record) : parts.read r = read? r := by
  simp [parts, read?, DistanceFilter.form, BoxFilter.form, Record.optional, Option.map_bind]

theorem parts_settles : parts.Settles :=
  as_settles (both_settles
    (Fields.optional_settles "geo_distance_filter" (fun _ => nofun) DistanceFilter.form_settles)
    (Fields.optional_settles "geo_bounding_box_filter" (fun _ => nofun) BoxFilter.form_settles))

end GeoFilters

/-! ## Requests -/

namespace DeviceSearch

def form : Form DeviceSearch := ⟨ofPayload?, toJson, fun s => s.geo.coordinates⟩

def parts : Fields DeviceSearch :=
  Fields.as ((Fields.one "page" 0 .whole).both <|
      (Fields.one "per_page" 0 .whole).both <|
      (Fields.one "filters" [] (Predicate.form Scope).list).both <|
      GeoFilters.parts.both <|
      (Fields.one "sort" [] (SortKey.form Scope).list).both <|
      (Fields.one "attributes" [] (Attribute.form Scope).list).both <|
      .one "device_ids" [] Form.text.list)
  ⟨fun (page, perPage, filters, geo, sort, attributes, deviceIds) =>
      ⟨page, perPage, filters, geo, sort, attributes, deviceIds⟩,
    fun s => (s.page, s.perPage, s.filters, s.geo, s.sort, s.attributes, s.deviceIds),
    fun _ => rfl, fun _ => rfl⟩

theorem form_eq : form = .record parts 0 := by
  refine Form.eq_record (fun _ => rfl) (fun r => ?_) (fun _ => rfl) (fun s => ?_)
  · simp [parts, GeoFilters.parts_read, Predicate.form, SortKey.form, Attribute.form, Record.int64,
      Record.list, Record.strings, Option.map_bind, Option.bind_assoc]
  · simp [form, parts, Predicate.form, SortKey.form, Attribute.form]
    rfl

theorem form_settles : form.Settles := by
  rw [form_eq]
  refine record_settles (as_settles ?_)
  refine both_settles (Fields.whole_settles "page") ?_
  refine both_settles (Fields.whole_settles "per_page") ?_
  refine both_settles (Fields.list_settles "filters" Predicate.form_settles) ?_
  refine both_settles GeoFilters.parts_settles ?_
  refine both_settles (Fields.list_settles "sort" SortKey.form_settles) ?_
  refine both_settles (Fields.list_settles "attributes" Attribute.form_settles) ?_
  exact Fields.list_settles "device_ids" Form.text_settles

end DeviceSearch

namespace DeploymentSearch

def form : Form DeploymentSearch := ⟨ofPayload?, toJson, fun _ => []⟩

def parts : Fields DeploymentSearch :=
  Fields.as ((Fields.one "page" 0 .whole).both <|
      (Fields.one "per_page" 0 .whole).both <|
      (Fields.one "filters" [] (Predicate.form Flat).list).both <|
      (Fields.one "sort" [] (SortKey.form Flat).list).both <|
      (Fields.one "attributes" [] (Attribute.form Flat).list).both <|
      (Fields.one "device_ids" [] Form.text.list).both <|
      .one "deployment_ids" [] Form.text.list)
  ⟨fun (page, perPage, filters, sort, attributes, deviceIds, deploymentIds) =>
      ⟨page, perPage, filters, sort, attributes, deviceIds, deploymentIds⟩,
    fun s => (s.page, s.perPage, s.filters, s.sort, s.attributes, s.deviceIds, s.deploymentIds),
    fun _ => rfl, fun _ => rfl⟩

theorem form_eq : form = .record parts 0 := by
  refine Form.eq_record (fun _ => rfl) (fun r => ?_) (fun _ => rfl) (fun s => ?_)
  · simp [parts, Predicate.form, SortKey.form, Attribute.form, Record.int64,
      Record.list, Record.strings, Option.map_bind, Option.bind_assoc]
  · simp [form, parts, Predicate.form, SortKey.form, Attribute.form]

theorem form_settles : form.Settles := by
  rw [form_eq]
  refine record_settles (as_settles ?_)
  refine both_settles (Fields.whole_settles "page") ?_
  refine both_settles (Fields.whole_settles "per_page") ?_
  refine both_settles (Fields.list_settles "filters" Predicate.form_settles) ?_
  refine both_settles (Fields.list_settles "sort" SortKey.form_settles) ?_
  refine both_settles (Fields.list_settles "attributes" Attribute.form_settles) ?_
  refine both_settles (Fields.list_settles "device_ids" Form.text_settles) ?_
  exact Fields.list_settles "deployment_ids" Form.text_settles

end DeploymentSearch

namespace DeviceSummary

def form : Form DeviceSummary := ⟨ofPayload?, toJson, fun s => s.geo.coordinates⟩

def parts : Fields DeviceSummary :=
  Fields.as ((Fields.one "aggregations" [] (Term.form Scope).list).both <|
      (Fields.one "filters" [] (Predicate.form Scope).list).both GeoFilters.parts)
  ⟨fun (aggregations, filters, geo) => ⟨aggregations, filters, geo⟩,
    fun s => (s.aggregations, s.filters, s.geo), fun _ => rfl, fun _ => rfl⟩

theorem form_eq : form = .record parts 0 := by
  refine Form.eq_record (fun _ => rfl) (fun r => ?_) (fun s => ?_) (fun s => ?_)
  · simp [parts, GeoFilters.parts_read, Predicate.form, Term.form, Record.list, Option.map_bind,
      Option.bind_assoc]
  · simp only [form, toJson, Term.listJson_eq_map]
    rfl
  · simp [form, parts, Predicate.form, Term.form]
    rfl

theorem form_settles : form.Settles := by
  rw [form_eq]
  refine record_settles (as_settles ?_)
  refine both_settles (Fields.list_settles "aggregations" Term.form_settles) ?_
  exact both_settles (Fields.list_settles "filters" Predicate.form_settles) GeoFilters.parts_settles

end DeviceSummary

namespace DeploymentSummary

def form : Form DeploymentSummary := ⟨ofPayload?, toJson, fun _ => []⟩

def parts : Fields DeploymentSummary :=
  Fields.as ((Fields.one "aggregations" [] (Term.form Flat).list).both <|
      .one "filters" [] (Predicate.form Flat).list)
  ⟨fun (aggregations, filters) => ⟨aggregations, filters⟩, fun s => (s.aggregations, s.filters),
    fun _ => rfl, fun _ => rfl⟩

theorem form_eq : form = .record parts 0 := by
  refine Form.eq_record (fun _ => rfl) (fun r => ?_) (fun s => ?_) (fun s => ?_)
  · simp [parts, Predicate.form, Term.form, Record.list, Option.map_bind]
  · simp only [form, toJson, Term.listJson_eq_map]
    rfl
  · simp [form, parts, Predicate.form, Term.form]

theorem form_settles : form.Settles := by
  rw [form_eq]
  exact record_settles (as_settles (both_settles
    (Fields.list_settles "aggregations" Term.form_settles)
    (Fields.list_settles "filters" Predicate.form_settles)))

end DeploymentSummary

/-- The parts of requests that both domains have. -/
structure PartsSettle (σ : Type) [Scoping σ] : Prop where
  attributes : (Attribute.form σ).Settles
  predicates : (Predicate.form σ).Settles
  sortKeys : (SortKey.form σ).Settles
  terms : (Term.form σ).Settles

/-- The parts of geographic filters. -/
structure ShapesSettle : Prop where
  points : Point.form.Settles
  circles : Circle.form.Settles
  rectangles : Rectangle.form.Settles
  distanceFilters : DistanceFilter.form.Settles
  boundingBoxes : BoundingBox.form.Settles
  boxFilters : BoxFilter.form.Settles

theorem partsSettle (σ : Type) [Scoping σ] [Scoping.Lawful σ] : PartsSettle σ where
  attributes := Attribute.form_settles
  predicates := Predicate.form_settles
  sortKeys := SortKey.form_settles
  terms := Term.form_settles

theorem shapesSettle : ShapesSettle where
  points := Point.form_settles
  circles := Circle.form_settles
  rectangles := Rectangle.form_settles
  distanceFilters := DistanceFilter.form_settles
  boundingBoxes := BoundingBox.form_settles
  boxFilters := BoxFilter.form_settles

/-- In whatever way a request or a part of one is sent, what is written for it is read again, is
written again as it is, and stands for the same exactly if its coordinates are finite. -/
theorem requests_settle :
    DeviceSearch.form.Settles ∧ DeviceSummary.form.Settles ∧ DeploymentSearch.form.Settles ∧
      DeploymentSummary.form.Settles ∧ PartsSettle Scope ∧ PartsSettle Flat ∧ ShapesSettle ∧
      Operand.form.Settles := by
  refine ⟨DeviceSearch.form_settles, DeviceSummary.form_settles, DeploymentSearch.form_settles,
    DeploymentSummary.form_settles, ?_, ?_, ?_, ?_⟩
  · exact partsSettle Scope
  · exact partsSettle Flat
  · exact shapesSettle
  · exact Operand.form_settles

/-- A search that is sent as an array, with a latitude that is too great for a single. Its filter
has an operand of no kind with a member given twice, and an unknown member that stands for no
value. -/
def farSearch : Payload :=
  .array [.number (.int 3), .number (.int 20),
    .array [.object [("value", .object [("b", .null), ("a", .null), ("b", .bool true)]),
      ("type", .string "$eq"), ("comment", .unreadable)]],
    .object [("geo_distance", .array [.string "10km",
      .array [.number (.double ⟨false, 4503599627370496, 148⟩), .number (.int 2)]])]]

theorem requests_settle_far : ∃ s, DeviceSearch.form.read farSearch = some s ∧
    (∃ c ∈ s.geo.coordinates, c.isFinite = false) ∧ DeviceSearch.form.Settled s := by
  have read : ∃ s, DeviceSearch.form.read farSearch = some s ∧
      s.geo.coordinates.any (fun c => !c.isFinite) = true := ⟨_, rfl, by decide⟩
  obtain ⟨s, known, far⟩ := read
  refine ⟨s, known, by simpa using far, ?_⟩
  exact requests_settle.1 farSearch s known

end FleetSearch
