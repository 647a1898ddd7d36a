import FleetSearch.Compiler

/-! # Written forms

How the parts of a document are written, spelt out member by member. Results about documents are
stated in these forms and not in the functions that write them; that the functions write nothing else
is shown once for each part. -/
namespace FleetSearch

open Number (leastInt64 greatestInt64)

/-! ## Conditions and orders -/

namespace Json

/-- A condition of one kind on one field. -/
def condition (kind field : String) (value : Json) : Json :=
  .object [(kind, .object [(field, value)])]

/-- The condition that one of some fields is there. -/
def somePresent (fields : List String) : Json :=
  .object [("bool", .object [("minimum_should_match", .number (.int 1)),
    ("should", .array (fields.map fun field => condition "exists" "field" (.string field)))])]

/-- The condition that a field has one of some values, if there are any. -/
def among (field : String) (values : List String) : List Json :=
  if values = [] then [] else [condition "terms" field (.array (values.map .string))]

/-- One level of the order of results. -/
def level (field order unmapped : String) : Json :=
  .object [(field, .object [("order", .string order), ("unmapped_type", .string unmapped)])]

end Json

namespace Clause

mutual

/-- A clause as it is written. -/
def written : Clause → Json
  | matching field value => .condition "match" field value
  | range field .greater value => .condition "range" field (.object [("gt", value)])
  | range field .greaterOrEqual value => .condition "range" field (.object [("gte", value)])
  | range field .less value => .condition "range" field (.object [("lt", value)])
  | range field .lessOrEqual value => .condition "range" field (.object [("lte", value)])
  | terms field values => .condition "terms" field values
  | term field value => .condition "term" field (.string value)
  | regexp field value => .condition "regexp" field value
  | present field => .condition "exists" "field" (.string field)
  | anyOf clauses =>
    .object [("bool", .object [("minimum_should_match", .number (.int 1)),
      ("should", .array (writtenAll clauses))])]
  | given json => json

def writtenAll : List Clause → List Json
  | [] => []
  | clause :: rest => written clause :: writtenAll rest

end

mutual

theorem toJson_eq_written : (clause : Clause) → clause.toJson = clause.written
  | matching _ _ | terms _ _ | term _ _ | regexp _ _ | present _ | given _ => rfl
  | range _ bound _ => by cases bound <;> rfl
  | anyOf clauses => by
    rw [toJson, written, listJson_eq_writtenAll clauses]
    rfl

theorem listJson_eq_writtenAll : (clauses : List Clause) → listJson clauses = writtenAll clauses
  | [] => rfl
  | clause :: rest => by
    rw [listJson, writtenAll, toJson_eq_written clause, listJson_eq_writtenAll rest]

end

theorem map_toJson (clauses : List Clause) : clauses.map toJson = clauses.map written :=
  List.map_congr_left fun clause _ => clause.toJson_eq_written

end Clause

theorem Query.clausesMember_eq (name : String) (clauses : List Json) :
    clausesMember name clauses = if clauses = [] then [] else [(name, .array clauses)] := by
  cases clauses <;> rfl

/-! ## Attributes and operands -/

namespace Attribute

variable {σ : Type} [Scoping σ]

/-- The field in which a value of a kind is looked for. -/
def comparedField (a : Attribute σ) (kind : ValueKind) : String :=
  if a.name = "id" then "id" else FieldName.of (Scoping.text a.scope) a.name kind

theorem comparedField_eq (a : Attribute σ) (kind : ValueKind) :
    (FieldName.special? a.name).getD (a.field kind) = a.comparedField kind := by
  unfold FieldName.special? comparedField
  split <;> rfl

/-- The fields of an attribute of any kind. -/
def allFields (a : Attribute σ) : List String :=
  [FieldName.of (Scoping.text a.scope) a.name .string,
    FieldName.of (Scoping.text a.scope) a.name .number,
    FieldName.of (Scoping.text a.scope) a.name .boolean]

/-- The conditions that have to hold and those that must not for a comparison with a value of a
kind. -/
def conditions (a : Attribute σ) (operator : String) (kind : ValueKind) (value : Json) :
    List Json × List Json :=
  let field := a.comparedField kind
  match operator with
  | "$eq" => ([.condition "match" field value], [])
  | "$ne" => ([], [.condition "match" field value])
  | "$gt" => ([.condition "range" field (.object [("gt", value)])], [])
  | "$gte" => ([.condition "range" field (.object [("gte", value)])], [])
  | "$lt" => ([.condition "range" field (.object [("lt", value)])], [])
  | "$lte" => ([.condition "range" field (.object [("lte", value)])], [])
  | "$in" => ([.condition "terms" field value], [])
  | "$nin" => ([], [.condition "terms" field value])
  | "$regex" => ([.condition "regexp" field value], [])
  | "$exists" =>
    match value with
    | .bool true => ([.somePresent a.allFields], [])
    | _ => ([], a.allFields.map fun field => .condition "exists" "field" (.string field))
  | _ => ([], [])

/-- The two levels of order for an attribute of unknown kind: by its strings, then by its numbers. -/
def levels (a : Attribute σ) (order : String) : List Json :=
  [.level (FieldName.of (Scoping.text a.scope) a.name .string) order "keyword",
    .level (FieldName.of (Scoping.text a.scope) a.name .number) order "double"]

/-- The fields that are shown for some attributes, and those that always are. -/
def shown (attributes : List (Attribute σ)) : List String :=
  attributes.flatMap allFields ++ ["id", "check_in_time"]

end Attribute

namespace Operand

/-- An operand as it is written. -/
def written : Operand → Json
  | string s => .string s
  | number n => .number n
  | boolean b => .bool b
  | strings items => .array (items.map .string)
  | numbers items => .array (items.map .number)
  | booleans items => .array (items.map .bool)
  | unusable value => value

theorem toJson_eq_written (operand : Operand) : operand.toJson = operand.written := by
  cases operand <;> rfl

/-- The kind under which an operand is looked for. -/
def valueKind : Operand → ValueKind
  | string _ | strings _ | unusable _ => .string
  | number _ | numbers _ => .number
  | boolean _ | booleans _ => .boolean

end Operand

/-- The conditions that a predicate adds. -/
def Predicate.conditions {σ : Type} [Scoping σ] (p : Predicate σ) : List Json × List Json :=
  p.subject.conditions p.operator p.operand.valueKind p.operand.written

/-- The conditions of a filter as they are written: those that have to hold and those that must
not. -/
def Filter.written (f : Filter) : List Json × List Json :=
  (f.must.map Clause.written, f.mustNot.map Clause.written)

/-! ## Shapes -/

namespace Json

/-- A coordinate; one that is not given, or too great for a single, is null. -/
def coordinate : Option Coordinate → Json
  | some (.finite x) => .number (.single x)
  | some (.infinite _) => .null
  | none => .null

def place : Option Point → Json
  | some ⟨latitude, longitude⟩ =>
    .object [("lat", coordinate latitude), ("lon", coordinate longitude)]
  | none => .null

end Json

/-- A circle as it is written, with nothing in the place of what is not given. -/
def DistanceFilter.written : DistanceFilter → Json
  | ⟨some ⟨distance, location⟩⟩ =>
    .object [("geo_distance",
      .object [("distance", .string distance), ("location", .place location)])]
  | ⟨none⟩ => .object []

def BoxFilter.written : BoxFilter → Json
  | ⟨some ⟨some ⟨topLeft, bottomRight⟩⟩⟩ =>
    .object [("geo_bounding_box", .object [("location",
      .object [("top_left", .place topLeft), ("bottom_right", .place bottomRight)])])]
  | ⟨some ⟨none⟩⟩ => .object [("geo_bounding_box", .object [])]
  | ⟨none⟩ => .object []

/-- The shape that is looked in: of two the circle. -/
def GeoFilters.written? : GeoFilters → Option Json
  | ⟨some circle, _⟩ => some circle.written
  | ⟨.none, some box⟩ => some box.written
  | ⟨.none, .none⟩ => .none

namespace Json

theorem toJson_coordinate (x? : Option Coordinate) : Coordinate.toJson x? = coordinate x? := by
  obtain _ | _ | _ := x? <;> rfl

theorem toJson_place (p? : Option Point) : ofOptional Point.toJson p? = place p? := by
  obtain _ | ⟨latitude, longitude⟩ := p?
  · rfl
  · simp only [ofOptional, Point.toJson, toJson_coordinate, place]

end Json

theorem DistanceFilter.toJson_eq_written (f : DistanceFilter) : f.toJson = f.written := by
  obtain ⟨_ | ⟨distance, location⟩⟩ := f
  · rfl
  · simp only [toJson, Json.memberOf, Circle.toJson, Json.toJson_place, written]

theorem BoxFilter.toJson_eq_written (f : BoxFilter) : f.toJson = f.written := by
  obtain ⟨_ | ⟨_ | ⟨topLeft, bottomRight⟩⟩⟩ := f
  · rfl
  · rfl
  · simp only [toJson, Json.memberOf, BoundingBox.toJson, Rectangle.toJson, Json.toJson_place, written]

theorem GeoFilters.clause?_eq_written? (g : GeoFilters) : g.clause? = g.written? := by
  obtain ⟨_ | circle, _ | box⟩ := g
  · rfl
  · exact congrArg some box.toJson_eq_written
  · exact congrArg some circle.toJson_eq_written
  · exact congrArg some circle.toJson_eq_written

/-! ## Buckets -/

namespace Aggregation

mutual

/-- Buckets as they are written; those inside are left out where there are none. -/
def written : Aggregation → Json
  | mk field size inner =>
    .object ([("terms", .object [("field", .string field), ("size", .number (.int size))])] ++
      if inner = [] then [] else [("aggs", .object (writtenAll inner))])

def writtenAll : List (String × Aggregation) → List (String × Json)
  | [] => []
  | (name, aggregation) :: rest => (name, written aggregation) :: writtenAll rest

end

mutual

theorem toJson_eq_written : (aggregation : Aggregation) → aggregation.toJson = aggregation.written
  | mk field size inner => by
    rw [toJson, written, membersJson_eq_writtenAll inner]
    cases inner <;> rfl

theorem membersJson_eq_writtenAll :
    (aggregations : List (String × Aggregation)) → membersJson aggregations = writtenAll aggregations
  | [] => rfl
  | (name, aggregation) :: rest => by
    rw [membersJson, writtenAll, toJson_eq_written aggregation, membersJson_eq_writtenAll rest]

end

theorem membersJson_eq (aggregations : Aggregations) :
    membersJson aggregations = aggregations.map fun entry => (entry.1, entry.2.toJson) := by
  induction aggregations with
  | nil => rfl
  | cons entry rest ih => rw [membersJson, ih, List.map_cons]

theorem sizeOfLimit_eq (limit : Int) : sizeOfLimit limit = if 0 < limit then limit else 10 := by
  unfold sizeOfLimit defaultSize
  split <;> split <;> omega

end Aggregation

namespace Term

variable {σ : Type} (fieldOf : Attribute σ → String)

mutual

/-- The buckets of a term as they are written, with a table of those of its children inside. -/
def bucket : Term σ → Json
  | mk _ subject limit children =>
    .object ([("terms", .object [("field", .string (fieldOf subject)),
        ("size", .number (.int (if 0 < limit then limit else 10)))])] ++
      if children = [] then [] else [("aggs", .object (Table.ofList (namedBuckets children)))])

def namedBuckets : List (Term σ) → List (String × Json)
  | [] => []
  | t :: rest => (t.name, bucket t) :: namedBuckets rest

end

theorem aggregations_ne_nil {terms : List (Term σ)} (present : terms ≠ []) :
    aggregations fieldOf terms ≠ [] := by
  rw [aggregations_eq]
  exact Table.ofList_ne_nil fun none => present (List.map_eq_nil_iff.mp none)

theorem namedBuckets_eq (terms : List (Term σ)) :
    namedBuckets fieldOf terms = terms.map fun t => (t.name, t.bucket fieldOf) := by
  induction terms with
  | nil => rfl
  | cons t rest ih => rw [namedBuckets, ih, List.map_cons]

/-- Buckets are written as a table of those of their terms once each of these is. -/
theorem membersJson_of_buckets {terms : List (Term σ)}
    (each : ∀ t ∈ terms, (t.aggregation fieldOf).toJson = t.bucket fieldOf) :
    Aggregation.membersJson (aggregations fieldOf terms) =
      Table.ofList (namedBuckets fieldOf terms) := by
  rw [aggregations_eq, Aggregation.membersJson_eq, Table.map_ofList, List.map_map, namedBuckets_eq]
  congr 1
  exact List.map_congr_left fun t member => congrArg (Prod.mk t.name) (each t member)

theorem toJson_aggregation (t : Term σ) : (t.aggregation fieldOf).toJson = t.bucket fieldOf := by
  induction t using Term.induction with
  | node name subject limit children ih =>
    have inner := membersJson_of_buckets fieldOf ih
    have built : aggregationsInto fieldOf [] children = aggregations fieldOf children := rfl
    rw [bucket, ← inner, aggregation, Aggregation.toJson, Aggregation.sizeOfLimit_eq, built]
    cases children with
    | nil => rfl
    | cons child rest =>
      have some_inside := aggregations_ne_nil fieldOf (List.cons_ne_nil child rest)
      simp [some_inside]

theorem listJson_aggregations (terms : List (Term σ)) :
    Aggregation.listJson (aggregations fieldOf terms) =
      .object (Table.ofList (namedBuckets fieldOf terms)) :=
  congrArg Json.object (membersJson_of_buckets fieldOf fun t _ => t.toJson_aggregation fieldOf)

end Term

/-! ## Places on pages -/

/-- The nearest number that fits 64 bits. -/
theorem saturate_eq (n : Int) : saturate n = max leastInt64 (min n greatestInt64) := by
  have order : leastInt64 ≤ greatestInt64 := by decide
  unfold saturate
  split
  · omega
  · split <;> omega

/-- The place of the first result of a page: pages are counted from one, and neither their distance
nor the place leaves 64 bits. -/
def Query.firstPlace (page perPage : Int) : Int :=
  let before := max leastInt64 (min (page - 1) greatestInt64)
  max leastInt64 (min (before * perPage) greatestInt64)

theorem Query.pageOffset_eq_firstPlace (page perPage : Int) :
    pageOffset page perPage = firstPlace page perPage := by
  rw [pageOffset, saturate_eq, saturate_eq, firstPlace]

namespace Settings

/-- How many results a page has, for the size that is asked for. -/
def pageSize (s : Settings) (perPage : Int) : Int :=
  if perPage ≤ 0 then s.defaultPerPage else min perPage s.mostPerPage

theorem paging_eq (s : Settings) (page perPage : Int) :
    s.paging page perPage = (max page 1, s.pageSize perPage) := by
  have first : (if page ≤ 0 then firstPage else page) = max page 1 := by
    unfold firstPage
    split <;> omega
  have size : (if perPage ≤ 0 then s.defaultPerPage
      else if s.mostPerPage < perPage then s.mostPerPage else perPage) = s.pageSize perPage := by
    unfold pageSize
    split
    · rfl
    · split <;> omega
  rw [paging, first, size]

end Settings

end FleetSearch
