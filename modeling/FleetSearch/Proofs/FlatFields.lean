import FleetSearch.Proofs.BucketTrees
import FleetSearch.Proofs.Mirror
import FleetSearch.Proofs.Naming
import FleetSearch.Proofs.Placement
import FleetSearch.Proofs.Trees

/-! # Fields of flat attributes

Filters, sort keys and selections write the dots of a flat attribute as marks, but buckets take it as
it stands. So the two agree on the attributes without dots and on no others, and a tree with a dotted
attribute makes other buckets than it would in a scope without a name, however deep the attribute
stands. -/
namespace FleetSearch

/-! ## Buckets over two kinds of fields -/

namespace Term

/-- Terms that are changed one by one, without their names. -/
theorem aggregations_map {σ τ : Type} {fieldOf : Attribute τ → String}
    {fieldOf' : Attribute σ → String} {change : Term σ → Term τ} {terms : List (Term σ)}
    (names : ∀ t, (change t).name = t.name)
    (each : ∀ t ∈ terms, (change t).aggregation fieldOf = t.aggregation fieldOf') :
    aggregations fieldOf (terms.map change) = aggregations fieldOf' terms := by
  rw [aggregations_eq, aggregations_eq, List.map_map]
  congr 1
  apply List.map_congr_left
  intro t member
  rw [Function.comp_apply, names, each t member]

section

variable {σ : Type} {fieldOf fieldOf' : Attribute σ → String}

theorem aggregation_congr {t : Term σ}
    (same : ∀ u : Term σ, u.Within [t] → fieldOf u.subject = fieldOf' u.subject) :
    t.aggregation fieldOf = t.aggregation fieldOf' := by
  induction t using Term.induction with
  | node name subject limit children ih =>
    have below : aggregations fieldOf (children.map id) = aggregations fieldOf' children :=
      aggregations_map (fun _ => rfl) fun child member => ih child member fun u within =>
        same u (.inside List.mem_cons_self (within.mono (List.forall_mem_singleton.mpr member)))
    rw [List.map_id] at below
    rw [aggregation_eq, aggregation_eq, same _ (.here List.mem_cons_self), Term.children, below]

/-- Fields that are the same all over the trees make the same buckets. -/
theorem aggregations_congr {terms : List (Term σ)}
    (same : ∀ t : Term σ, t.Within terms → fieldOf t.subject = fieldOf' t.subject) :
    aggregations fieldOf terms = aggregations fieldOf' terms := by
  have each : aggregations fieldOf (terms.map id) = aggregations fieldOf' terms :=
    aggregations_map (fun _ => rfl) fun t member => aggregation_congr fun u within =>
      same u (within.mono (List.forall_mem_singleton.mpr member))
  rwa [List.map_id] at each

/-- Where siblings have names of their own every term has its bucket, and the same buckets are over
the same fields. -/
theorem fields_eq_of_aggregations_eq {terms : List (Term σ)} (apart : Apart terms)
    (same : aggregations fieldOf terms = aggregations fieldOf' terms) {t : Term σ}
    (within : t.Within terms) : fieldOf t.subject = fieldOf' t.subject := by
  have bucket {terms : List (Term σ)} (apart : Apart terms)
      (same : aggregations fieldOf terms = aggregations fieldOf' terms) {u : Term σ}
      (member : u ∈ terms) : fieldOf u.subject = fieldOf' u.subject ∧
        aggregations fieldOf u.children = aggregations fieldOf' u.children := by
    have found := lookup_aggregations_of_mem fieldOf apart.1 member
    rw [same, lookup_aggregations_of_mem fieldOf' apart.1 member, aggregation_eq,
      aggregation_eq] at found
    obtain ⟨field, _, inner⟩ := Aggregation.mk.inj (Option.some.inj found)
    exact ⟨field.symm, inner.symm⟩
  induction within with
  | here member => exact (bucket apart same member).1
  | inside member _ ih => exact ih (apart.children member) (bucket apart same member).2

theorem aggregations_eq_iff {terms : List (Term σ)} (apart : Apart terms) :
    aggregations fieldOf terms = aggregations fieldOf' terms ↔
      ∀ t : Term σ, t.Within terms → fieldOf t.subject = fieldOf' t.subject :=
  ⟨fun same _ within => fields_eq_of_aggregations_eq apart same within, aggregations_congr⟩

end

theorem name_inScope (scope : String) (t : Term Flat) : (t.inScope scope).name = t.name := by
  obtain ⟨name, subject, limit, children⟩ := t
  rfl

theorem aggregation_inScope (scope : String) (fieldOf : Attribute Scope → String) (t : Term Flat) :
    (t.inScope scope).aggregation fieldOf =
      t.aggregation fun a => fieldOf (a.inScope scope) := by
  induction t using Term.induction with
  | node name subject limit children ih =>
    have below := aggregations_map (name_inScope scope) ih
    rw [aggregation_eq, aggregation_eq, children_inScope, Term.children, below]
    rfl

/-- Trees in a scope have the buckets over the fields of the attributes in this scope. -/
theorem aggregations_inScope (scope : String) (fieldOf : Attribute Scope → String)
    (terms : List (Term Flat)) : aggregations fieldOf (terms.map (inScope scope)) =
      aggregations (fun a => fieldOf (a.inScope scope)) terms :=
  aggregations_map (name_inScope scope) fun t _ => t.aggregation_inScope scope fieldOf

end Term

/-! ## Flat attributes -/

/-- The field under which filters, sort keys and selections look a flat attribute up. -/
def Attribute.sharedField (a : Attribute Flat) : String := FieldName.escapeDots a.name

theorem Attribute.field_flat (a : Attribute Flat) (kind : ValueKind) :
    a.field kind = a.sharedField := rfl

/-- The attribute as it stands is the shared field exactly if it has no dot. -/
theorem Attribute.eq_sharedField_iff (a : Attribute Flat) :
    a.name = a.sharedField ↔ '.' ∉ a.name.toList :=
  eq_comm.trans (FieldName.escapeDots_eq_self_iff a.name)

theorem Term.deviceAggregations_outside (terms : List (Term Flat)) :
    deviceAggregations (terms.map (inScope "")) = aggregations Attribute.sharedField terms :=
  aggregations_inScope "" _ terms

namespace Predicate

/-- Every filter looks at some field. -/
theorem fields_ne_nil {σ : Type} [Scoping σ] {p : Predicate σ} {f : Filter}
    (built : p.filter = .ok f) : f.fields ≠ [] := by
  obtain ⟨operator, _, built⟩ := exists_built built
  cases built with
  | present wanted _ => cases wanted <;> exact List.cons_ne_nil _ _
  | _ => exact List.cons_ne_nil _ _

/-- A filter of deployments looks at the shared field only, the attribute `id` included. -/
theorem eq_sharedField_of_mem_fields {p : Predicate Flat} {f : Filter} (built : p.filter = .ok f)
    {field : String} (member : field ∈ f.fields) : field = p.subject.sharedField := by
  obtain ⟨special, rfl⟩ | ⟨kind, rfl⟩ := p.field_of_mem_fields built member
  · rw [Attribute.sharedField, special]
    decide
  · exact p.subject.field_flat kind

end Predicate

theorem SortKey.clauses_flat (key : SortKey Flat) : key.clauses =
    let order := if key.order = "" then "asc" else key.order
    [.by key.subject.sharedField order "keyword", .by key.subject.sharedField order "double"] := by
  have strings : key.subject.variants.string = key.subject.sharedField := rfl
  have numbers : key.subject.variants.number = key.subject.sharedField := rfl
  by_cases blank : key.order = "" <;> simp [clauses, blank, ascending, strings, numbers]

/-- All parts of a query for deployments look an attribute up under its shared field. -/
structure DeploymentSearch.LooksUp (s : DeploymentSearch) (q : Query) : Prop where
  filters : ∀ p ∈ s.filters, ∃ f, p.filter = .ok f ∧ f.must ⊆ q.must ∧ f.mustNot ⊆ q.mustNot ∧
    f.fields ≠ [] ∧ ∀ field ∈ f.fields, field = p.subject.sharedField
  sort : q.sort = s.sort.flatMap fun key =>
    let order := if key.order = "" then "asc" else key.order
    [.by key.subject.sharedField order "keyword", .by key.subject.sharedField order "double"]
  selection : s.attributes ≠ [] → q.projection = some
    ((s.attributes.flatMap fun a => [a.sharedField, a.sharedField, a.sharedField]) ++
      ["id", "check_in_time"])

theorem DeploymentSearch.query_looksUp {s : DeploymentSearch} {groups : List String} {q : Query}
    (built : s.query groups = .ok q) : s.LooksUp q := by
  rw [query_eq] at built
  cases found : s.filters.mapM Predicate.filter with
  | error problem =>
    rw [found] at built
    cases built
  | ok filters =>
    rw [found] at built
    cases built
    constructor
    case filters =>
      intro p member
      have listed : p.filter ∈ filters.map Except.ok := by
        rw [← map_eq_of_mapM_eq_ok found]
        exact List.mem_map.mpr ⟨p, member, rfl⟩
      obtain ⟨f, kept, built⟩ := List.mem_map.mp listed
      refine ⟨f, built.symm, ?_, ?_, Predicate.fields_ne_nil built.symm, ?_⟩
      · intro clause holds
        exact List.mem_append_left _ (List.mem_flatMap.mpr ⟨f, kept, holds⟩)
      · intro clause holds
        exact List.mem_flatMap.mpr ⟨f, kept, holds⟩
      · exact fun _ => Predicate.eq_sharedField_of_mem_fields built.symm
    case sort =>
      exact List.flatMap_congr fun key _ => key.clauses_flat
    case selection =>
      intro present
      simp only [Attribute.projection, List.isEmpty_iff, present, if_false]
      rfl

/-- Deployments have the buckets that their trees would have outside of all scopes exactly if no
attribute has a dot, as long as siblings have names of their own; without dots they have them in any
case. And a bucket is over the field under which all parts of a query look the attribute up exactly
if the attribute has no dot. -/
theorem flat_fields_agree_iff :
    (∀ terms : List (Term Flat), Term.Apart terms →
      (Term.deploymentAggregations terms = Term.deviceAggregations (terms.map (Term.inScope "")) ↔
        ∀ t : Term Flat, t.Within terms → '.' ∉ t.subject.name.toList)) ∧
    (∀ terms : List (Term Flat), (∀ t : Term Flat, t.Within terms → '.' ∉ t.subject.name.toList) →
      Term.deploymentAggregations terms = Term.deviceAggregations (terms.map (Term.inScope ""))) ∧
    (∀ (s : DeploymentSearch) (groups : List String) (q : Query), s.query groups = .ok q →
      s.LooksUp q) ∧
    ∀ (name : String) (a : Attribute Flat) (limit : Int) (children : List (Term Flat)),
      ∃ field size, Term.deploymentAggregations [.mk name a limit children] =
        [(name, .mk field size (Term.deploymentAggregations children))] ∧
        (field = a.sharedField ↔ '.' ∉ a.name.toList) := by
  refine ⟨?_, ?_, ?_, ?_⟩
  · intro terms apart
    rw [Term.deviceAggregations_outside, Term.deploymentAggregations, Term.aggregations_eq_iff apart]
    simp only [Attribute.eq_sharedField_iff]
  · intro terms undotted
    rw [Term.deviceAggregations_outside]
    exact Term.aggregations_congr fun t within =>
      t.subject.eq_sharedField_iff.mpr (undotted t within)
  · exact fun s groups q built => DeploymentSearch.query_looksUp built
  · intro name a limit children
    exact ⟨a.name, _, rfl, a.eq_sharedField_iff⟩

/-- Deployments by status, and inside by an attribute with a dot. -/
def Term.phases : Term Flat :=
  .mk "states" ⟨.flat, "status"⟩ 0 [.mk "phases" ⟨.flat, "state.phase"⟩ 0 []]

/-- Two terms of one name. -/
def Term.twins : List (Term Flat) :=
  [.mk "same" ⟨.flat, "kind"⟩ 0 [], .mk "same" ⟨.flat, "rack"⟩ 0 []]

/-- Deployments that are in some phase, the latest phase first. -/
def DeploymentSearch.phased : DeploymentSearch :=
  { DeploymentSearch.ofPage 1 20 with
    filters := [⟨⟨.flat, "state.phase"⟩, "$exists", .boolean true⟩]
    sort := [⟨⟨.flat, "state.phase"⟩, "desc"⟩] }

/-- A dot at the second level makes other buckets. Without dots two terms of one name make the same
ones, though only the later one has a bucket. -/
theorem flat_fields_agree_iff_phases :
    (Term.Apart [Term.phases] ∧ Term.deploymentAggregations [Term.phases] ≠
      Term.deviceAggregations ([Term.phases].map (Term.inScope ""))) ∧
    ((∀ t : Term Flat, t.Within Term.twins → '.' ∉ t.subject.name.toList) ∧
      Term.deploymentAggregations Term.twins =
        Term.deviceAggregations (Term.twins.map (Term.inScope ""))) ∧
    ∃ q, DeploymentSearch.phased.query [] = .ok q ∧ DeploymentSearch.phased.LooksUp q := by
  refine ⟨?_, ?_, ?_⟩
  · have apart : Term.Apart [Term.phases] := by
      have none : Term.Apart ([] : List (Term Flat)) := (Term.apart_iff []).mpr (by simp)
      simp only [Term.phases, Term.apart_cons_iff, Term.children, none, and_true]
      decide
    refine ⟨apart, ?_⟩
    intro same
    have undotted := (flat_fields_agree_iff.1 _ apart).mp same
    have within : Term.Within (.mk "phases" ⟨.flat, "state.phase"⟩ 0 []) [Term.phases] :=
      .inside List.mem_cons_self (.here List.mem_cons_self)
    exact undotted _ within (by decide)
  · have undotted : ∀ t : Term Flat, t.Within Term.twins → '.' ∉ t.subject.name.toList := by
      have top : ∀ t ∈ Term.twins, t.children = [] ∧ '.' ∉ t.subject.name.toList := by
        simp [Term.twins, Term.children, Term.subject]
      intro t within
      cases within with
      | here member => exact (top t member).2
      | inside member below =>
        rw [(top _ member).1] at below
        cases below <;> contradiction
    exact ⟨undotted, flat_fields_agree_iff.2.1 Term.twins undotted⟩
  · obtain ⟨q, built⟩ : ∃ q, DeploymentSearch.phased.query [] = .ok q := ⟨_, rfl⟩
    exact ⟨q, built, flat_fields_agree_iff.2.2.1 DeploymentSearch.phased [] q built⟩

end FleetSearch
