import FleetSearch.Proofs.BucketTrees
import FleetSearch.Proofs.Naming
import FleetSearch.Proofs.Placement

/-! # Dots in fields

The index takes a field with a dot for a path. Of the texts that the field of a device attribute is
put together of, the name is written without dots, but the scope as it stands. So all fields that a
document names, wherever it names them, have a dot exactly where the scope of their attribute has
one. -/
namespace FleetSearch

/-! ## The fields that a document names -/

namespace Json

mutual

/-- The fields that a condition looks at. A shape has its field under its own name, a circle next to
the distance. -/
def lookedAt : Json → List String
  | .object [("bool", .object parts)] => partsLookedAt parts
  | .object [("match", .object [(field, _)])]
  | .object [("range", .object [(field, _)])]
  | .object [("terms", .object [(field, _)])]
  | .object [("term", .object [(field, _)])]
  | .object [("regexp", .object [(field, _)])]
  | .object [("exists", .object [("field", .string field)])] => [field]
  | .object [("geo_distance", .object members)] =>
    (members.map Prod.fst).filter fun name => name ≠ "distance"
  | .object [("geo_bounding_box", .object members)] => members.map Prod.fst
  | _ => []

/-- The fields that the clauses of a combination look at, listed ones and single ones. -/
def partsLookedAt : List (String × Json) → List String
  | [] => []
  | (_, .array clauses) :: rest => clausesLookedAt clauses ++ partsLookedAt rest
  | (_, part) :: rest => lookedAt part ++ partsLookedAt rest

def clausesLookedAt : List Json → List String
  | [] => []
  | clause :: rest => lookedAt clause ++ clausesLookedAt rest

end

def itemsUnder (document : Json) (name : String) : List Json :=
  match document.member? name with
  | some (.array items) => items
  | _ => []

def conditionFields (document : Json) : List String :=
  (document.member? "query").elim [] lookedAt

def sortFields (document : Json) : List String := (document.itemsUnder "sort").flatMap names

def shownFields (document : Json) : List String :=
  (document.itemsUnder "fields").filterMap string?

/-- The fields of all buckets, however deep they stand. -/
def bucketFields (document : Json) : List String :=
  ((document.member? "aggs").elim [] buckets).filterMap fun found =>
    (found.2.member? "field").bind string?

end Json

theorem Json.clausesLookedAt_eq (clauses : List Json) :
    clausesLookedAt clauses = clauses.flatMap lookedAt := by
  induction clauses with
  | nil => rfl
  | cons clause rest ih => rw [clausesLookedAt, ih, List.flatMap_cons]

theorem Json.partsLookedAt_clausesMember (name : String) (clauses : List Json)
    (rest : List (String × Json)) :
    partsLookedAt (Query.clausesMember name clauses ++ rest) =
      clauses.flatMap lookedAt ++ partsLookedAt rest := by
  rw [← clausesLookedAt_eq]
  cases clauses with
  | nil => rfl
  | cons clause more => rfl

/-! Shapes are looked for in one field. -/

theorem GeoFilters.exists_members {g : GeoFilters} {shape : Json} (used : g.clause? = some shape) :
    ∃ members, shape = .object members := by
  obtain ⟨_ | circle, _ | box⟩ := g <;> cases used <;> exact ⟨_, rfl⟩

theorem DistanceFilter.eq_location_of_lookedAt {f : DistanceFilter} {field : String}
    (looked : field ∈ f.toJson.lookedAt) : field = "location" := by
  obtain ⟨_ | circle⟩ := f
  · cases looked
  · have named : (toJson ⟨some circle⟩).lookedAt = ["location"] := rfl
    rw [named] at looked
    exact List.mem_singleton.mp looked

theorem BoxFilter.eq_location_of_lookedAt {f : BoxFilter} {field : String}
    (looked : field ∈ f.toJson.lookedAt) : field = "location" := by
  obtain ⟨_ | ⟨_ | rectangle⟩⟩ := f
  · cases looked
  · cases looked
  · exact List.mem_singleton.mp looked

theorem GeoFilters.eq_location_of_lookedAt {g : GeoFilters} {field : String}
    (looked : field ∈ g.clause?.elim [] Json.lookedAt) : field = "location" := by
  obtain ⟨_ | circle, _ | box⟩ := g
  · cases looked
  · exact box.eq_location_of_lookedAt looked
  · exact circle.eq_location_of_lookedAt looked
  · exact circle.eq_location_of_lookedAt looked

namespace Query

variable {q : Query}

theorem conditionFields_toJson (none : q.extras = []) : q.toJson.conditionFields =
    q.must.flatMap (fun c => c.toJson.lookedAt) ++
      (q.mustNot.flatMap (fun c => c.toJson.lookedAt) ++ q.geo.clause?.elim [] Json.lookedAt) := by
  have shape : Json.partsLookedAt (Json.memberOf "filter" id q.geo.clause?) =
      q.geo.clause?.elim [] Json.lookedAt := by
    cases used : q.geo.clause? with
    | none => rfl
    | some shape =>
      obtain ⟨members, rfl⟩ := GeoFilters.exists_members used
      exact List.append_nil _
  rw [Json.conditionFields, member?_query none]
  change Json.partsLookedAt q.parts = _
  rw [parts, List.append_assoc, Json.partsLookedAt_clausesMember, Json.partsLookedAt_clausesMember,
    shape, List.flatMap_map, List.flatMap_map]

/-- The slots that name fields, next to the condition. -/
theorem lookup_slots (q : Query) :
    q.slots.lookup "sort" =
      (clausesMember "sort" (q.sort.map SortClause.toJson)).lookup "sort" ∧
    q.slots.lookup "fields" = q.projection.map Json.strings ∧
    q.slots.lookup "aggs" = q.aggregations.map Aggregation.listJson := by
  obtain ⟨_, _, sort, _, _, _, projection, aggregations, _⟩ := q
  cases sort <;> cases projection <;> cases aggregations <;> exact ⟨rfl, rfl, rfl⟩

theorem sortFields_toJson (none : q.extras = []) :
    q.toJson.sortFields = q.sort.flatMap fun level => level.toJson.names := by
  have items : q.toJson.itemsUnder "sort" = q.sort.map SortClause.toJson := by
    rw [Json.itemsUnder, member?_of_no_extras none, q.lookup_slots.1]
    cases q.sort <;> rfl
  rw [Json.sortFields, items, List.flatMap_map]

theorem shownFields_toJson (none : q.extras = []) :
    q.toJson.shownFields = q.projection.getD [] := by
  have items : q.toJson.itemsUnder "fields" = (q.projection.getD []).map .string := by
    rw [Json.itemsUnder, member?_of_no_extras none, q.lookup_slots.2.1]
    cases q.projection <;> rfl
  rw [Json.shownFields, items, List.filterMap_map]
  exact List.filterMap_some

theorem bucketFields_toJson (none : q.extras = []) : q.toJson.bucketFields =
    (q.aggregations.elim [] fun a => (Aggregation.listJson a).buckets).filterMap fun found =>
      (found.2.member? "field").bind Json.string? := by
  rw [Json.bucketFields, member?_of_no_extras none, q.lookup_slots.2.2]
  cases q.aggregations <;> rfl

end Query

/-! ## The fields of attributes -/

/-- A field is one of an attribute, and has a dot exactly if the scope of the attribute has one. -/
structure Attribute.KeptUnder (a : Attribute Scope) (field : String) : Prop where
  composed : ∃ kind, field = FieldName.of a.scope.name a.name kind
  dotted : '.' ∈ field.toList ↔ '.' ∈ a.scope.name.toList

theorem FieldName.dot_mem_of_iff (scope name : String) (kind : ValueKind) :
    '.' ∈ (FieldName.of scope name kind).toList ↔ '.' ∈ scope.toList := by
  have name_clear := dot_not_mem_escapeDots name
  have kind_clear : '.' ∉ kind.suffix.toList := by cases kind <;> decide
  by_cases blank : scope = ""
  · simp [FieldName.of, blank, name_clear]
  · rw [of_eq_joined blank, toList_joined]
    simp [name_clear, kind_clear]

theorem Attribute.keptUnder_field (a : Attribute Scope) (kind : ValueKind) :
    a.KeptUnder (a.field kind) :=
  ⟨⟨kind, rfl⟩, FieldName.dot_mem_of_iff a.scope.name a.name kind⟩

/-- The conditions of a filter look at its fields. -/
theorem Predicate.lookedAt_filter {p : Predicate Scope} {f : Filter} (built : p.filter = .ok f) :
    f.must.flatMap (fun c => c.toJson.lookedAt) ++ f.mustNot.flatMap (fun c => c.toJson.lookedAt) =
      f.fields := by
  obtain ⟨operator, _, built⟩ := exists_built built
  cases built with
  | present wanted _ => cases wanted <;> rfl
  | _ => rfl

/-- The fields that some conditions look at. -/
def Clause.allLookedAt (clauses : List Clause) : List String :=
  clauses.flatMap fun c => c.toJson.lookedAt

theorem Clause.mem_allLookedAt_append {field : String} {before after : List Clause} :
    field ∈ allLookedAt (before ++ after) ↔ field ∈ allLookedAt before ∨ field ∈ allLookedAt after := by
  rw [allLookedAt, List.flatMap_append, List.mem_append]
  rfl

/-- The fields of documents that a search for devices is limited by. -/
def Request.limiting : List String := ["id", "system_group_str", "tenant_id", "location"]

theorem Request.mem_limiting_of_restrictions {r : Request} (devices : r.domain = .devices)
    {context : Context} {field : String}
    (looked : field ∈ Clause.allLookedAt (r.restrictions context)) : field ∈ limiting := by
  have among {name : String} (fixed : name ∈ limiting) {values : List String}
      (looked : field ∈ Clause.allLookedAt (Clause.among name values)) : field ∈ limiting := by
    cases values with
    | nil => cases looked
    | cons value rest =>
      obtain rfl := List.mem_singleton.mp looked
      exact fixed
  have groups : DeviceSearch.groupField ∈ limiting := by decide
  have ids : FieldName.id ∈ limiting := by decide
  have tenant (looked : field ∈ Clause.allLookedAt context.tenantClauses) : field ∈ limiting := by
    unfold Context.tenantClauses at looked
    split at looked
    · cases looked
    · obtain rfl := List.mem_singleton.mp looked
      decide
  cases r with
  | deviceSearch search =>
    simp only [restrictions, Clause.mem_allLookedAt_append] at looked
    obtain (looked | looked) | looked := looked
    · exact among groups looked
    · exact among ids looked
    · exact tenant looked
  | deviceSummary summary =>
    simp only [restrictions, Clause.mem_allLookedAt_append] at looked
    obtain looked | looked := looked
    · exact among groups looked
    · exact tenant looked
  | deploymentSearch search => cases devices
  | deploymentSummary summary => cases devices

/-- A field that filters look at is that of a compared attribute, or the one that documents are known
by. -/
theorem Predicate.keptUnder_of_looked {predicates : List (Predicate Scope)} {filters : List Filter}
    (built : predicates.mapM filter = .ok filters) {f : Filter} (member : f ∈ filters)
    {field : String} (looked : field ∈ Clause.allLookedAt f.must ++ Clause.allLookedAt f.mustNot) :
    field = "id" ∨ ∃ p ∈ predicates, p.subject.KeptUnder field := by
  have one : .ok f ∈ predicates.map filter := by
    rw [map_eq_of_mapM_eq_ok built]
    exact List.mem_map.mpr ⟨f, member, rfl⟩
  obtain ⟨p, asked, built⟩ := List.mem_map.mp one
  rw [Clause.allLookedAt, Clause.allLookedAt, lookedAt_filter built] at looked
  obtain ⟨_, rfl⟩ | ⟨kind, rfl⟩ := field_of_mem_fields built looked
  · exact .inl rfl
  · exact .inr ⟨p, asked, p.subject.keptUnder_field kind⟩

namespace Request

variable {r : Request} {s : Settings} {context : Context} {filters : List Filter}

theorem conditionFields_body (predicates : List (Predicate Scope))
    (built : predicates.mapM Predicate.filter = .ok filters) (devices : r.domain = .devices) :
    ∀ field ∈ (r.body s context filters).toJson.conditionFields,
      field ∈ limiting ∨ ∃ p ∈ predicates, p.subject.KeptUnder field := by
  intro field looked
  have asked {f : Filter} (member : f ∈ filters)
      (looked : field ∈ Clause.allLookedAt f.must ++ Clause.allLookedAt f.mustNot) :
      field ∈ limiting ∨ ∃ p ∈ predicates, p.subject.KeptUnder field := by
    obtain rfl | kept := Predicate.keptUnder_of_looked built member looked
    · exact .inl (by decide)
    · exact .inr kept
  have within {parts : Filter → List Clause}
      (looked : field ∈ Clause.allLookedAt (filters.flatMap parts)) :
      ∃ f ∈ filters, field ∈ Clause.allLookedAt (parts f) := by
    rw [Clause.allLookedAt, List.flatMap_assoc] at looked
    exact List.mem_flatMap.mp looked
  rw [Query.conditionFields_toJson rfl, List.mem_append, List.mem_append] at looked
  obtain must | mustNot | shape := looked
  · obtain must | restricted := Clause.mem_allLookedAt_append.mp must
    · obtain ⟨f, member, looked⟩ := within must
      exact asked member (List.mem_append_left _ looked)
    · exact .inl (mem_limiting_of_restrictions devices restricted)
  · obtain ⟨f, member, looked⟩ := within mustNot
    exact asked member (List.mem_append_right _ looked)
  · obtain rfl := GeoFilters.eq_location_of_lookedAt shape
    exact .inl (by decide)

end Request

theorem SortKey.sortFields_clauses (key : SortKey Scope) :
    key.clauses.flatMap (fun level => level.toJson.names) =
      [key.subject.field .string, key.subject.field .number] := rfl

theorem SortKey.keptUnder_of_level {keys : List (SortKey Scope)} {field : String}
    (ordered : field ∈ (keys.flatMap clauses).flatMap fun level => level.toJson.names) :
    ∃ key ∈ keys, key.subject.KeptUnder field := by
  rw [List.flatMap_assoc] at ordered
  obtain ⟨key, member, ordered⟩ := List.mem_flatMap.mp ordered
  rw [sortFields_clauses, List.mem_pair] at ordered
  obtain rfl | rfl := ordered
  · exact ⟨key, member, key.subject.keptUnder_field .string⟩
  · exact ⟨key, member, key.subject.keptUnder_field .number⟩

theorem Attribute.keptUnder_of_mem_variants {a : Attribute Scope} {field : String}
    (listed : field ∈ a.variants.toList) : a.KeptUnder field := by
  obtain ⟨kind, _, rfl⟩ : ∃ kind ∈ ValueKind.all, a.field kind = field := List.mem_map.mp listed
  exact a.keptUnder_field kind

theorem Attribute.keptUnder_of_shown {attributes : List (Attribute Scope)} {field : String}
    (shown : field ∈ (projection attributes).getD []) :
    field ∈ ["id", "check_in_time"] ∨ ∃ a ∈ attributes, a.KeptUnder field := by
  unfold projection at shown
  split at shown
  · cases shown
  · obtain asked | always := List.mem_append.mp shown
    · obtain ⟨a, member, listed⟩ := List.mem_flatMap.mp asked
      exact .inr ⟨a, member, keptUnder_of_mem_variants listed⟩
    · exact .inl always

namespace Term

variable {σ : Type}

/-- The terms of a tree stand within it. -/
theorem within_of_mem_nodesIn {terms : List (Term σ)} {node : List String × Term σ}
    (member : node ∈ nodesIn terms) : node.2.Within terms := by
  rw [nodesIn_eq, List.mem_flatMap] at member
  obtain ⟨t, top, within⟩ := member
  have smaller := sizeOf_children_lt top
  rw [nodes_eq] at within
  obtain rfl | below := List.mem_cons.mp within
  · exact .here top
  · obtain ⟨inner, member, rfl⟩ := List.mem_map.mp below
    have deeper : inner.2.Within t.children := within_of_mem_nodesIn member
    exact .inside top deeper
termination_by sizeOf terms

theorem keptUnder_of_bucket {terms : List (Term Scope)} {field : String}
    (counted : field ∈ ((Aggregation.listJson (deviceAggregations terms)).buckets).filterMap
      fun found => (found.2.member? "field").bind Json.string?) :
    ∃ t : Term Scope, t.Within terms ∧ t.subject.KeptUnder field := by
  obtain ⟨found, listed, counts⟩ := List.mem_filterMap.mp counted
  obtain ⟨node, member, rfl⟩ := List.mem_map.mp (buckets_subset _ terms listed)
  have same : some (node.2.subject.field .string) = some field := counts
  cases same
  exact ⟨node.2, within_of_mem_nodesIn member, node.2.subject.keptUnder_field .string⟩

end Term

namespace Settings

/-- Every field that the document of an accepted request for devices names is one that all documents
have, or that of an attribute that the request names in the same part: compares, orders by, shows or
counts, however deep. A field of an attribute has a dot exactly if the scope of the attribute has
one, whatever its name is. -/
theorem dots_stem_from_scopes (s : Settings) (context : Context) :
    (∀ (search : DeviceSearch) (found : IndexSearch),
      s.compile context (.deviceSearch search) = .ok found →
      (∀ field ∈ found.body.toJson.conditionFields,
        field ∈ ["id", "system_group_str", "tenant_id", "location"] ∨
          ∃ p ∈ search.filters, p.subject.KeptUnder field) ∧
      (∀ field ∈ found.body.toJson.sortFields, ∃ key ∈ search.sort, key.subject.KeptUnder field) ∧
      (∀ field ∈ found.body.toJson.shownFields,
        field ∈ ["id", "check_in_time"] ∨ ∃ a ∈ search.attributes, a.KeptUnder field) ∧
      found.body.toJson.bucketFields = []) ∧
    ∀ (summary : DeviceSummary) (found : IndexSearch),
      s.compile context (.deviceSummary summary) = .ok found →
      (∀ field ∈ found.body.toJson.conditionFields,
        field ∈ ["id", "system_group_str", "tenant_id", "location"] ∨
          ∃ p ∈ summary.filters, p.subject.KeptUnder field) ∧
      found.body.toJson.sortFields = [] ∧ found.body.toJson.shownFields = [] ∧
      ∀ field ∈ found.body.toJson.bucketFields,
        ∃ t : Term Scope, t.Within summary.aggregations ∧ t.subject.KeptUnder field := by
  constructor
  · intro search found accepted
    obtain ⟨_, filters, built, rfl⟩ := (compile_eq_ok_iff s context _ found).mp accepted
    refine ⟨Request.conditionFields_body search.filters built rfl, ?_, ?_, ?_⟩
    · intro field ordered
      rw [Query.sortFields_toJson rfl] at ordered
      exact SortKey.keptUnder_of_level ordered
    · intro field shown
      rw [Query.shownFields_toJson rfl] at shown
      exact Attribute.keptUnder_of_shown shown
    · rw [Query.bucketFields_toJson rfl]
      rfl
  · intro summary found accepted
    obtain ⟨_, filters, built, rfl⟩ := (compile_eq_ok_iff s context _ found).mp accepted
    refine ⟨Request.conditionFields_body summary.filters built rfl, ?_, ?_, ?_⟩
    · rw [Query.sortFields_toJson rfl]
      rfl
    · rw [Query.shownFields_toJson rfl]
      rfl
    · intro field counted
      rw [Query.bucketFields_toJson rfl] at counted
      exact Term.keptUnder_of_bucket counted

/-- One address is compared and shown, with a dot in its scope; the search is ordered by a version,
with one in its name. -/
def addressed : DeviceSearch :=
  { DeviceSearch.ofPage 1 20 with
    filters := [.of ⟨⟨"net.eth0"⟩, "mac"⟩ .equal (.string "a")]
    sort := [⟨⟨⟨"inventory"⟩, "fw.version"⟩, "asc"⟩]
    attributes := [⟨⟨"net.eth0"⟩, "mac"⟩] }

/-- The addresses of each version. -/
def addressesByVersion : DeviceSummary :=
  ⟨[.mk "versions" ⟨⟨"inventory"⟩, "fw.version"⟩ 0 [.mk "addresses" ⟨⟨"net.eth0"⟩, "mac"⟩ 0 []]],
    [], .none⟩

/-- The fields of the version have no dot, at the top of a tree and in an order; those of the address
have one, compared, shown and below. -/
theorem dots_stem_from_scopes_addressed :
    (∃ found, standard.compile ⟨"", []⟩ (.deviceSearch addressed) = .ok found ∧
      "net.eth0_mac_str" ∈ found.body.toJson.conditionFields ∧
      (∃ p ∈ addressed.filters, p.subject.KeptUnder "net.eth0_mac_str") ∧
      ∀ field ∈ found.body.toJson.sortFields, '.' ∉ field.toList) ∧
    ∃ found, standard.compile ⟨"", []⟩ (.deviceSummary addressesByVersion) = .ok found ∧
      found.body.toJson.bucketFields = ["inventory_fw\\\\version_str", "net.eth0_mac_str"] ∧
      ∀ field ∈ found.body.toJson.bucketFields,
        ∃ t : Term Scope, t.Within addressesByVersion.aggregations ∧ t.subject.KeptUnder field := by
  constructor
  · obtain ⟨found, accepted, looked⟩ : ∃ found,
        standard.compile ⟨"", []⟩ (.deviceSearch addressed) = .ok found ∧
          "net.eth0_mac_str" ∈ found.body.toJson.conditionFields := ⟨_, rfl, by decide⟩
    obtain ⟨compared, ordered, -⟩ := (dots_stem_from_scopes standard _).1 addressed found accepted
    refine ⟨found, accepted, looked, (compared _ looked).resolve_left (by decide), ?_⟩
    intro field named
    obtain ⟨key, member, kept⟩ := ordered field named
    obtain rfl := List.mem_singleton.mp member
    exact fun dot => absurd (kept.dotted.mp dot) (by decide)
  · obtain ⟨found, accepted, counts⟩ : ∃ found,
        standard.compile ⟨"", []⟩ (.deviceSummary addressesByVersion) = .ok found ∧
          found.body.toJson.bucketFields = ["inventory_fw\\\\version_str", "net.eth0_mac_str"] :=
      ⟨_, rfl, by decide⟩
    exact ⟨found, accepted, counts,
      ((dots_stem_from_scopes standard _).2 addressesByVersion found accepted).2.2.2⟩

/-- A scope with a dot is accepted, and the field that is looked up has the dot. -/
theorem dotted_scope_shows :
    (∃ found, standard.compile ⟨"", []⟩ (.deviceSearch addressed) = .ok found ∧
      found.body.toJson.conditionFields = ["net.eth0_mac_str"] ∧
      addressed.violations = [] ∧ '.' ∈ "net.eth0_mac_str".toList) ∧
    ¬ ∀ (search : DeviceSearch) (found : IndexSearch),
      standard.compile ⟨"", []⟩ (.deviceSearch search) = .ok found →
      ∀ field ∈ found.body.toJson.conditionFields, '.' ∉ field.toList := by
  obtain ⟨found, accepted, looked⟩ : ∃ found,
      standard.compile ⟨"", []⟩ (.deviceSearch addressed) = .ok found ∧
        found.body.toJson.conditionFields = ["net.eth0_mac_str"] := ⟨_, rfl, by decide⟩
  refine ⟨⟨found, accepted, looked, rfl, by decide⟩, ?_⟩
  intro clear
  refine clear addressed found accepted "net.eth0_mac_str" ?_ (by decide)
  rw [looked]
  exact List.mem_singleton_self _

end Settings

end FleetSearch
