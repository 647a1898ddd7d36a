import FleetSearch.Query

/-! # Reading documents

What a reader finds in a written document: the names of an object, the value under a name that is
written once, and the value at the end of a path of such names. The document of a query has every
name once. -/
namespace FleetSearch

/-! ## Entries with distinct names -/

theorem lookup_eq_some_iff_mem {α : Type} {entries : List (String × α)}
    (distinct : (entries.map Prod.fst).Nodup) (name : String) (entry : α) :
    entries.lookup name = some entry ↔ (name, entry) ∈ entries := by
  induction entries with
  | nil => simp
  | cons head rest ih =>
    obtain ⟨other, kept⟩ := head
    obtain ⟨fresh, distinct⟩ := List.nodup_cons.mp distinct
    rw [List.lookup_cons, List.mem_cons, Prod.mk.injEq]
    by_cases same : name = other
    · subst same
      have absent : (name, entry) ∉ rest := fun h => fresh (List.mem_map.mpr ⟨_, h, rfl⟩)
      simp [absent, eq_comm]
    · have apart : (name == other) = false := by simp [same]
      simp [same, apart, ih distinct]

/-- The order of entries with distinct names does not matter to a reader. -/
theorem lookup_of_perm {α : Type} {a b : List (String × α)} (perm : a.Perm b)
    (distinct : (a.map Prod.fst).Nodup) (name : String) : a.lookup name = b.lookup name := by
  have distinct' := (perm.map Prod.fst).nodup distinct
  apply Option.ext
  intro entry
  rw [lookup_eq_some_iff_mem distinct, lookup_eq_some_iff_mem distinct', perm.mem_iff]

namespace Json

/-- The members of an object; other values have none. -/
def members : Json → List (String × Json)
  | .object members => members
  | _ => []

/-- The names in an object, as often as they are written. -/
def names (value : Json) : List String := value.members.map Prod.fst

/-- The value under a name that is written exactly once. -/
def member? (value : Json) (name : String) : Option Json :=
  match value.members.filter (fun member => member.1 == name) with
  | [member] => some member.2
  | _ => none

/-- The value at the end of a path, each name of which is written exactly once. -/
def at? (value : Json) : List String → Option Json
  | [] => some value
  | name :: path => (value.member? name).bind fun inner => at? inner path

theorem member?_object {members : List (String × Json)}
    (distinct : (members.map Prod.fst).Nodup) (name : String) :
    (object members).member? name = members.lookup name := by
  simp only [member?, Json.members]
  induction members with
  | nil => simp
  | cons head rest ih =>
    obtain ⟨other, kept⟩ := head
    obtain ⟨fresh, distinct⟩ := List.nodup_cons.mp distinct
    by_cases same : other = name
    · subst same
      have alone : rest.filter (fun member => member.1 == other) = [] := by
        apply List.filter_eq_nil_iff.mpr
        intro member h again
        exact fresh (List.mem_map.mpr ⟨member, h, eq_of_beq again⟩)
      simp [alone]
    · have apart : (name == other) = false := by simp [Ne.symm same]
      rw [List.filter_cons_of_neg (by simpa using same), ih distinct, List.lookup_cons, apart]

end Json

/-! ## The document of a query -/

namespace Query

/-- The names that a query writes of itself, in their order. -/
def slotNames (q : Query) : List String :=
  ["query"] ++ (if q.sort = [] then [] else ["sort"]) ++ ["from", "size"] ++
    (if q.projection.isSome then ["fields", "_source"] else []) ++
    (if q.aggregations.isSome then ["aggs"] else [])

theorem map_fst_slots (q : Query) : q.slots.map Prod.fst = q.slotNames := by
  simp only [slots, slotNames, clausesMember, Json.memberOf, List.map_append]
  congr 1
  · congr 1
    · cases q.sort <;> simp
    · cases q.projection <;> rfl
  · cases q.aggregations <;> rfl

theorem slotNames_nodup (q : Query) : q.slotNames.Nodup := by
  unfold slotNames
  split <;> split <;> split <;> decide

/-- The keys that a query is said to write are those that it writes. -/
theorem emits_iff (q : Query) (key : String) : q.emits key = true ↔ key ∈ q.slotNames := by
  unfold emits slotNames
  split
  · simp
  · simp
  · simp
  · by_cases unsorted : q.sort = [] <;> simp [unsorted]
  · cases q.projection <;> simp
  · cases q.projection <;> simp
  · cases q.aggregations <;> simp
  · simp_all

theorem map_fst_members (q : Query) :
    q.members.map Prod.fst =
      q.slotNames ++ (q.extras.map Prod.fst).filter (fun name => !q.slotNames.contains name) := by
  have same (key : String) : q.emits key = q.slotNames.contains key :=
    Bool.eq_iff_iff.mpr ((q.emits_iff key).trans List.contains_iff_mem.symm)
  simp only [members, same, List.map_append, List.map_map, List.filter_map]
  congr 1
  exact map_fst_slots q

/-- A document has every name once as long as the extras have. -/
theorem members_nodup {q : Query} (distinct : (q.extras.map Prod.fst).Nodup) :
    (q.members.map Prod.fst).Nodup := by
  rw [map_fst_members]
  apply List.nodup_append.mpr
  refine ⟨q.slotNames_nodup, distinct.filter _, ?_⟩
  rintro name own _ extra rfl
  have := (List.mem_filter.mp extra).2
  simp [own] at this

/-- A query without extras is written as its slots. -/
theorem members_of_no_extras {q : Query} (none : q.extras = []) : q.members = q.slots := by
  simp [members, none]

theorem member?_toJson {q : Query} (distinct : (q.extras.map Prod.fst).Nodup) (name : String) :
    q.toJson.member? name = q.members.lookup name :=
  Json.member?_object (members_nodup distinct) name

theorem member?_of_no_extras {q : Query} (none : q.extras = []) (name : String) :
    q.toJson.member? name = q.slots.lookup name := by
  rw [member?_toJson (by simp [none]), members_of_no_extras none]

theorem parts_nodup (q : Query) : (q.parts.map Prod.fst).Nodup := by
  unfold parts clausesMember Json.memberOf
  split <;> split <;> split <;> simp

/-- Nothing stands in for the condition of a query without extras. -/
theorem member?_query {q : Query} (none : q.extras = []) :
    q.toJson.member? "query" = some (Json.tagged "bool" (.object q.parts)) :=
  member?_of_no_extras none "query"

theorem at?_must {q : Query} (none : q.extras = []) (some_must : q.must ≠ []) :
    q.toJson.at? ["query", "bool", "must"] = some (.array (q.must.map Clause.toJson)) := by
  have inner : (Json.object q.parts).member? "must" = some (.array (q.must.map Clause.toJson)) := by
    rw [Json.member?_object q.parts_nodup]
    simp [parts, clausesMember, some_must]
  have outer : (Json.tagged "bool" (.object q.parts)).member? "bool" = some (.object q.parts) := rfl
  simp only [Json.at?, member?_query none, outer, inner, Option.bind_some]

end Query

end FleetSearch
