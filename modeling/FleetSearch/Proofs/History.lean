import FleetSearch.Proofs.Compiled
import FleetSearch.Proofs.Document
import FleetSearch.Proofs.Written
import Mathlib.Data.List.Induction

/-! # The history of a query

What is done to a query, from the empty one on, tells its document: clauses stay in the order in which
they came, of everything else the last word counts, and an extra key speaks for the member of its
name whether it was set before or after that member came to be. -/
namespace FleetSearch

/-- What can be done to a query: its own operations, and the parts of a request that use them. -/
inductive Step : Type 1 where
  | must (condition : Json)
  | mustNot (condition : Json)
  | sort (level : Json)
  | page (number perPage : Int)
  | size (count : Int)
  | geo (shapes : GeoFilters)
  | projection (fields : List String)
  | aggregations (buckets : Aggregations)
  | extra (key : String) (value : Json)
  | filter (f : Filter)
  | oneOf (field : String) (values : List String)
  | term (field value : String)
  | sortBy {σ : Type} [Scoping σ] (key : SortKey σ)
  | select {σ : Type} [Scoping σ] (attributes : List (Attribute σ))

namespace Step

def apply (q : Query) : Step → Query
  | must condition => q.addMust (.given condition)
  | mustNot condition => q.addMustNot (.given condition)
  | sort level => q.addSort (.given level)
  | page number perPage => q.withPage number perPage
  | size count => q.withSize count
  | geo shapes => q.withGeo shapes
  | projection fields => q.withProjection fields
  | aggregations buckets => q.withAggregations buckets
  | extra key value => q.withExtra key value
  | filter f => q.addFilter f
  | oneOf field values => q.addMust (.oneOf field values)
  | term field value => q.addMust (.term field value)
  | sortBy key => q.sortBy key
  | select attributes => q.select attributes

/-! What a step says, part by part. -/

def musts : Step → List Json
  | must condition => [condition]
  | filter f => f.must.map Clause.written
  | oneOf field values => [.condition "terms" field (.array (values.map .string))]
  | term field value => [.condition "term" field (.string value)]
  | _ => []

def mustNots : Step → List Json
  | mustNot condition => [condition]
  | filter f => f.mustNot.map Clause.written
  | _ => []

/-- A sort key that says no order is an ascending one. -/
def sorts : Step → List Json
  | sort level => [level]
  | sortBy key => key.subject.levels (if key.order = "" then "asc" else key.order)
  | _ => []

def offset? : Step → Option Int
  | page number perPage => some (Query.firstPlace number perPage)
  | _ => none

def size? : Step → Option Int
  | page _ perPage => some perPage
  | size count => some count
  | _ => none

def geo? : Step → Option GeoFilters
  | geo shapes => some shapes
  | _ => none

def projection? : Step → Option (List String)
  | projection fields => some fields
  | select attributes => some (Attribute.shown attributes)
  | _ => none

def aggregations? : Step → Option Aggregations
  | aggregations buckets => some buckets
  | _ => none

def key? : Step → Option String
  | extra key _ => some key
  | _ => none

/-- What a step says under an extra key. -/
def value? (wanted : String) : Step → Option Json
  | extra key value => if key = wanted then some value else none
  | _ => none

end Step

abbrev History := List Step

namespace History

def run (h : History) : Query := h.foldl Step.apply Query.empty

theorem run_append_singleton (h : History) (x : Step) : run (h ++ [x]) = x.apply (run h) := by
  rw [run, List.foldl_append]
  rfl

/-- The last word on something. -/
def last {α : Type} (word? : Step → Option α) (h : History) : Option α :=
  (h.filterMap word?).getLast?

theorem last_append_singleton {α : Type} (word? : Step → Option α) (h : History) (x : Step) :
    last word? (h ++ [x]) = (word? x).or (last word? h) := by
  rw [last, List.filterMap_append, List.getLast?_append, last]
  congr 1
  cases said : word? x <;> simp [said]

/-! ## The document that a history tells -/

/-- All conditions of a history in the order in which they came. -/
def condition (h : History) : Json :=
  .object [("bool", .object (
    (if h.flatMap Step.musts = [] then [] else [("must", .array (h.flatMap Step.musts))]) ++
    (if h.flatMap Step.mustNots = [] then []
      else [("must_not", .array (h.flatMap Step.mustNots))]) ++
    match (h.last Step.geo?).bind GeoFilters.written? with
      | some shape => [("filter", shape)]
      | none => []))]

/-- The keys that a query has of itself. -/
def ownKeys (h : History) : List String :=
  ["query"] ++ (if h.flatMap Step.sorts = [] then [] else ["sort"]) ++ ["from", "size"] ++
    (if (h.last Step.projection?).isSome then ["fields", "_source"] else []) ++
    (if (h.last Step.aggregations?).isSome then ["aggs"] else [])

/-- What stands under a key of the query's own, as long as nothing else is set there. -/
def own (h : History) : String → Json
  | "query" => h.condition
  | "sort" => .array (h.flatMap Step.sorts)
  | "from" => .number (.int ((h.last Step.offset?).getD (-20)))
  | "size" => .number (.int ((h.last Step.size?).getD 20))
  | "fields" => .array (((h.last Step.projection?).getD []).map .string)
  | "_source" => .bool false
  | "aggs" => .object (Aggregation.writtenAll ((h.last Step.aggregations?).getD []))
  | _ => .null

/-- The extra keys, each where it was first set. -/
def extraKeys (h : History) : List String := (h.filterMap Step.key?).eraseDups

def keys (h : History) : List String :=
  h.ownKeys ++ h.extraKeys.filter fun key => !h.ownKeys.contains key

/-- The value under a key: the last one that was set for it, and else the query's own. -/
def value (h : History) (key : String) : Json := (h.last (Step.value? key)).getD (h.own key)

end History

/-! ## Extra keys -/

namespace Query

theorem map_fst_putExtra (key : String) (value : Json) (extras : List (String × Json)) :
    (putExtra key value extras).map Prod.fst =
      if key ∈ extras.map Prod.fst then extras.map Prod.fst else extras.map Prod.fst ++ [key] := by
  induction extras with
  | nil => rfl
  | cons head rest ih =>
    obtain ⟨other, kept⟩ := head
    rw [putExtra]
    by_cases same : other = key
    · simp [same]
    · rw [if_neg same, List.map_cons, ih]
      split <;> simp_all [Ne.symm same]

theorem lookup_putExtra (key wanted : String) (value : Json) (extras : List (String × Json)) :
    (putExtra key value extras).lookup wanted =
      (if key = wanted then some value else none).or (extras.lookup wanted) := by
  induction extras with
  | nil =>
    rw [putExtra, List.lookup_cons]
    by_cases same : key = wanted
    · simp [same]
    · have apart : (wanted == key) = false := by simp [Ne.symm same]
      simp [same, apart]
  | cons head rest ih =>
    obtain ⟨other, kept⟩ := head
    rw [putExtra]
    by_cases same : other = key
    · subst same
      rw [if_pos rfl, List.lookup_cons, List.lookup_cons]
      by_cases hit : other = wanted
      · simp [hit]
      · have apart : (wanted == other) = false := by simp [Ne.symm hit]
        simp [hit, apart]
    · rw [if_neg same, List.lookup_cons, List.lookup_cons, ih]
      cases hit : wanted == other with
      | false => rfl
      | true =>
        obtain rfl := eq_of_beq hit
        simp [Ne.symm same]

end Query

/-! ## What a step does -/

namespace Step

theorem must_apply (x : Step) (q : Query) :
    (x.apply q).must.map Clause.toJson = q.must.map Clause.toJson ++ x.musts := by
  cases x with
  | must | oneOf | term => exact List.map_append
  | filter f => exact List.map_append.trans (congrArg _ (Clause.map_toJson f.must))
  | _ => exact (List.append_nil _).symm

theorem mustNot_apply (x : Step) (q : Query) :
    (x.apply q).mustNot.map Clause.toJson = q.mustNot.map Clause.toJson ++ x.mustNots := by
  cases x with
  | mustNot => exact List.map_append
  | filter f => exact List.map_append.trans (congrArg _ (Clause.map_toJson f.mustNot))
  | _ => exact (List.append_nil _).symm

theorem sort_apply (x : Step) (q : Query) :
    (x.apply q).sort.map SortClause.toJson = q.sort.map SortClause.toJson ++ x.sorts := by
  cases x with
  | sort => exact List.map_append
  | sortBy key =>
    simp only [apply, Query.sortBy, Query.addSort, sorts, List.map_append, List.append_assoc,
      String.isEmpty_iff]
    rfl
  | _ => exact (List.append_nil _).symm

theorem offset_apply (x : Step) (q : Query) : (x.apply q).offset = x.offset?.getD q.offset := by
  cases x with
  | page number perPage => exact Query.pageOffset_eq_firstPlace number perPage
  | _ => rfl

theorem size_apply (x : Step) (q : Query) : (x.apply q).size = x.size?.getD q.size := by
  cases x <;> rfl

theorem geo_apply (x : Step) (q : Query) : (x.apply q).geo = x.geo?.getD q.geo := by
  cases x <;> rfl

theorem projection_apply (x : Step) (q : Query) :
    (x.apply q).projection = x.projection?.or q.projection := by
  cases x <;> rfl

theorem aggregations_apply (x : Step) (q : Query) :
    (x.apply q).aggregations = x.aggregations?.or q.aggregations := by
  cases x <;> rfl

theorem map_fst_extras_apply (x : Step) (q : Query) :
    (x.apply q).extras.map Prod.fst = q.extras.map Prod.fst ++
      x.key?.toList.filter fun key => !(q.extras.map Prod.fst).contains key := by
  cases x with
  | extra key value =>
    change (Query.putExtra key value q.extras).map Prod.fst = _
    rw [Query.map_fst_putExtra]
    split <;> simp_all [key?]
  | _ => exact (List.append_nil _).symm

theorem lookup_extras_apply (x : Step) (q : Query) (key : String) :
    (x.apply q).extras.lookup key = (x.value? key).or (q.extras.lookup key) := by
  cases x with
  | extra other value => exact Query.lookup_putExtra other key value q.extras
  | _ => rfl

end Step

/-! ## What a run does -/

/-- A query is as a history tells. -/
structure History.Tells (h : History) (q : Query) : Prop where
  must : q.must.map Clause.toJson = h.flatMap Step.musts
  mustNot : q.mustNot.map Clause.toJson = h.flatMap Step.mustNots
  sort : q.sort.map SortClause.toJson = h.flatMap Step.sorts
  offset : q.offset = (h.last Step.offset?).getD (-20)
  size : q.size = (h.last Step.size?).getD 20
  geo : q.geo = (h.last Step.geo?).getD .none
  projection : q.projection = h.last Step.projection?
  aggregations : q.aggregations = h.last Step.aggregations?
  keys : q.extras.map Prod.fst = h.extraKeys
  distinct : (q.extras.map Prod.fst).Nodup
  values : ∀ key, q.extras.lookup key = h.last (Step.value? key)

namespace History

theorem extraKeys_append_singleton (h : History) (x : Step) :
    extraKeys (h ++ [x]) =
      h.extraKeys ++ x.key?.toList.filter fun key => !h.extraKeys.contains key := by
  have said : List.filterMap Step.key? [x] = x.key?.toList := by
    cases key : x.key? <;> simp [key]
  have known (key : String) : h.extraKeys.contains key = (h.filterMap Step.key?).contains key := by
    simp [extraKeys, List.contains_eq_mem]
  rw [extraKeys, List.filterMap_append, List.eraseDups_append, said]
  simp only [known, List.removeAll]
  congr 1
  cases x.key? with
  | none => rfl
  | some key =>
    simp only [Option.toList_some, List.filter_cons, List.filter_nil, List.elem_eq_contains]
    split <;> rfl

theorem Tells.step {h : History} {q : Query} (tells : h.Tells q) (x : Step) :
    Tells (h ++ [x]) (x.apply q) where
  must := by rw [x.must_apply, tells.must, List.flatMap_append, List.flatMap_singleton]
  mustNot := by rw [x.mustNot_apply, tells.mustNot, List.flatMap_append, List.flatMap_singleton]
  sort := by rw [x.sort_apply, tells.sort, List.flatMap_append, List.flatMap_singleton]
  offset := by rw [x.offset_apply, tells.offset, last_append_singleton, Option.getD_or]
  size := by rw [x.size_apply, tells.size, last_append_singleton, Option.getD_or]
  geo := by rw [x.geo_apply, tells.geo, last_append_singleton, Option.getD_or]
  projection := by rw [x.projection_apply, tells.projection, last_append_singleton]
  aggregations := by rw [x.aggregations_apply, tells.aggregations, last_append_singleton]
  keys := by rw [x.map_fst_extras_apply, tells.keys, extraKeys_append_singleton]
  distinct := by
    -- A key that is set again keeps its place, so what is added at the end is new.
    rw [x.map_fst_extras_apply]
    apply List.nodup_append.mpr
    refine ⟨tells.distinct, ?_, ?_⟩
    · cases x.key? with
      | none => exact List.nodup_nil
      | some key => exact (List.pairwise_singleton _ key).filter _
    · rintro key old _ fresh rfl
      have := (List.mem_filter.mp fresh).2
      simp [old] at this
  values := by
    intro key
    rw [x.lookup_extras_apply, tells.values, last_append_singleton]

theorem run_tells (h : History) : h.Tells h.run := by
  induction h using List.reverseRecOn with
  | nil => exact ⟨rfl, rfl, rfl, by decide, rfl, rfl, rfl, rfl, rfl, List.nodup_nil, fun _ => rfl⟩
  | append_singleton h x ih =>
    rw [run_append_singleton]
    exact ih.step x

/-! ## The document -/

theorem Tells.condition {h : History} {q : Query} (tells : h.Tells q) :
    q.condition = h.condition := by
  have shape : q.geo.clause? = (h.last Step.geo?).bind GeoFilters.written? := by
    rw [q.geo.clause?_eq_written?, tells.geo]
    cases h.last Step.geo? <;> rfl
  simp only [Query.condition, Query.parts, tells.must, tells.mustNot, shape, Query.clausesMember_eq,
    History.condition]
  cases (h.last Step.geo?).bind GeoFilters.written? <;> rfl

theorem Tells.slotNames {h : History} {q : Query} (tells : h.Tells q) :
    q.slotNames = h.ownKeys := by
  have unsorted : q.sort = [] ↔ h.flatMap Step.sorts = [] := by
    rw [← tells.sort, List.map_eq_nil_iff]
  simp only [Query.slotNames, ownKeys, unsorted, tells.projection, tells.aggregations]

/-- What a query writes of itself is its own. -/
theorem Tells.slots {h : History} {q : Query} (tells : h.Tells q) :
    ∀ slot ∈ q.slots, slot.2 = h.own slot.1 := by
  simp only [Query.slots, List.forall_mem_append]
  refine ⟨⟨⟨⟨?query, ?sort⟩, ?window⟩, ?projection⟩, ?aggregations⟩
  case query => simp [own, tells.condition]
  case sort =>
    rw [tells.sort, Query.clausesMember_eq]
    split
    · simp
    · simp [own]
  case window => simp [own, tells.offset, tells.size]
  case projection =>
    rw [tells.projection]
    cases said : h.last Step.projection? with
    | none => simp
    | some fields => simp [own, said, Json.strings]
  case aggregations =>
    rw [tells.aggregations]
    cases said : h.last Step.aggregations? with
    | none => simp [Json.memberOf]
    | some buckets =>
      simp [Json.memberOf, own, said, Aggregation.listJson, Aggregation.membersJson_eq_writtenAll]

theorem Tells.members_keys {h : History} {q : Query} (tells : h.Tells q) :
    q.members.map Prod.fst = h.keys := by
  rw [Query.map_fst_members, tells.slotNames, tells.keys]
  rfl

theorem Tells.members_values {h : History} {q : Query} (tells : h.Tells q) :
    ∀ member ∈ q.members, member.2 = h.value member.1 := by
  intro member written
  rcases List.mem_append.mp written with own | extra
  · obtain ⟨slot, listed, rfl⟩ := List.mem_map.mp own
    change (q.extras.lookup slot.1).getD slot.2 = h.value slot.1
    rw [tells.values, tells.slots slot listed]
    rfl
  · have kept := (List.mem_filter.mp extra).1
    have found := (lookup_eq_some_iff_mem tells.distinct member.1 member.2).mpr kept
    rw [tells.values] at found
    rw [value, found]
    rfl

/-- Entries with the values of a function are told by their names. -/
theorem eq_map_names {α : Type} {entries : List (String × α)} {f : String → α}
    (values : ∀ entry ∈ entries, entry.2 = f entry.1) :
    entries = (entries.map Prod.fst).map fun name => (name, f name) := by
  induction entries with
  | nil => rfl
  | cons head rest ih =>
    obtain ⟨first, others⟩ := List.forall_mem_cons.mp values
    rw [List.map_cons, List.map_cons, ← ih others, ← first]

end History

/-- The document of a query is told by its history: its keys, no key twice, and their values. And the
query knows which of the keys are its own. -/
theorem document_of_history (h : History) :
    h.run.toJson = .object (h.keys.map fun key => (key, h.value key)) ∧ h.keys.Nodup ∧
      ∀ key, h.run.emits key = true ↔ key ∈ h.ownKeys := by
  have tells := h.run_tells
  refine ⟨?_, ?_, ?_⟩
  · rw [Query.toJson, ← tells.members_keys, ← History.eq_map_names tells.members_values]
  · rw [← tells.members_keys]
    exact Query.members_nodup tells.distinct
  · intro key
    rw [Query.emits_iff, tells.slotNames]

/-! A key that was set before its member came to be is written in the place of that member, and one
that is no member of the query at the end. -/

example :
    (History.run [.extra "_source" (.bool true), .must (.object [("a", .number (.int 1))]),
      .page 3 10, .extra "timeout" (.string "1s"), .projection ["name"],
      .must (.object [("b", .null)])]).toJson =
    .object [
      ("query", .object [("bool", .object [
        ("must", .array [.object [("a", .number (.int 1))], .object [("b", .null)]])])]),
      ("from", .number (.int 20)), ("size", .number (.int 10)),
      ("fields", .array [.string "name"]), ("_source", .bool true), ("timeout", .string "1s")] := rfl

end FleetSearch
