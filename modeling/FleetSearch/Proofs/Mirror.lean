import FleetSearch.Proofs.Acceptance
import FleetSearch.Proofs.Compiled

/-! # Deployments as devices

A flat request reads as a request for devices once all its attributes are put into one scope. In a
named scope it is faulty exactly as it was. Without a scope it makes the same query, apart from the
fields that tell the groups and the devices of a document. -/
namespace FleetSearch

/-! ## Putting attributes into a scope -/

/-- The attribute of the same name in a scope. -/
def Attribute.inScope (scope : String) (a : Attribute Flat) : Attribute Scope := ⟨⟨scope⟩, a.name⟩

def Predicate.inScope (scope : String) (p : Predicate Flat) : Predicate Scope :=
  ⟨p.subject.inScope scope, p.operator, p.operand⟩

def SortKey.inScope (scope : String) (key : SortKey Flat) : SortKey Scope :=
  ⟨key.subject.inScope scope, key.order⟩

namespace Term

mutual

/-- All attributes of a tree in one scope. -/
def inScope (scope : String) : Term Flat → Term Scope
  | mk name subject limit children =>
    mk name (subject.inScope scope) limit (listInScope scope children)

def listInScope (scope : String) : List (Term Flat) → List (Term Scope)
  | [] => []
  | term :: rest => inScope scope term :: listInScope scope rest

end

theorem listInScope_eq (scope : String) (terms : List (Term Flat)) :
    listInScope scope terms = terms.map (inScope scope) := by
  induction terms with
  | nil => rfl
  | cons term rest ih => rw [listInScope, ih, List.map_cons]

theorem children_inScope (scope : String) (t : Term Flat) :
    (t.inScope scope).children = t.children.map (inScope scope) := by
  obtain ⟨name, subject, limit, children⟩ := t
  rw [inScope, listInScope_eq]
  rfl

end Term

/-- The search for devices that asks for the same. It cannot list deployments, and asks for no
place. -/
def DeploymentSearch.inScope (scope : String) (s : DeploymentSearch) : DeviceSearch where
  page := s.page
  perPage := s.perPage
  filters := s.filters.map (Predicate.inScope scope)
  geo := .none
  sort := s.sort.map (SortKey.inScope scope)
  attributes := s.attributes.map (Attribute.inScope scope)
  deviceIds := s.deviceIds

def DeploymentSummary.inScope (scope : String) (s : DeploymentSummary) : DeviceSummary where
  aggregations := s.aggregations.map (Term.inScope scope)
  filters := s.filters.map (Predicate.inScope scope)
  geo := .none

/-! ## Violations -/

theorem map_map_of_same {α β γ : Type} {f : α → β} {check : β → γ} {check' : α → γ}
    (same : ∀ x, check (f x) = check' x) (xs : List α) : (xs.map f).map check = xs.map check' := by
  rw [List.map_map]
  exact List.map_congr_left fun x _ => same x

theorem Violations.eachFrom_map {α β : Type} {check : β → Violations} {check' : α → Violations}
    {f : α → β} (index : Nat) (found : Violations) {items : List α}
    (same : ∀ item ∈ items, check (f item) = check' item) :
    eachFrom check index found (items.map f) = eachFrom check' index found items := by
  induction items generalizing index found with
  | nil => rfl
  | cons item rest ih =>
    obtain ⟨first, others⟩ := List.forall_mem_cons.mp same
    rw [List.map_cons, eachFrom, eachFrom, first]
    exact ih _ _ others

section

variable {scope : String} (named : scope ≠ "")

include named

/-- A scope that is named is never what is wrong. -/
theorem Attribute.check_inScope (violations : Violations) (a : Attribute Flat) :
    Attribute.check violations (a.inScope scope) = Attribute.check violations a := by
  have holds : Rule.required scope = none := (Rule.required_eq_none_iff scope).mpr named
  have unscoped : violations.check "scope" [Rule.required scope] = violations := by
    simp [Violations.check, holds]
  change Violations.check (violations.check "scope" [Rule.required scope]) "attribute" _ = _
  rw [unscoped]
  rfl

theorem Attribute.violations_inScope (a : Attribute Flat) :
    (a.inScope scope).violations = a.violations :=
  check_inScope named [] a

theorem Predicate.violations_inScope (p : Predicate Flat) :
    (p.inScope scope).violations = p.violations := by
  have subject : Attribute.check [] (p.inScope scope).subject = Attribute.check [] p.subject :=
    Attribute.check_inScope named [] p.subject
  unfold violations
  rw [subject]
  rfl

theorem SortKey.violations_inScope (key : SortKey Flat) :
    (key.inScope scope).violations = key.violations := by
  have subject : Attribute.check [] (key.inScope scope).subject = Attribute.check [] key.subject :=
    Attribute.check_inScope named [] key.subject
  unfold violations
  rw [subject]
  rfl

omit named in
/-- The walk goes the same way. -/
theorem Term.nestingError?_inScope (terms : List (Term Flat)) (budget : Nat) :
    nestingError? (terms.map (inScope scope)) budget = nestingError? terms budget := by
  induction budget generalizing terms with
  | zero => rfl
  | succ budget ih =>
    have parent (t : Term Flat) :
        (!(t.inScope scope).children.isEmpty) = !t.children.isEmpty := by
      rw [children_inScope, List.isEmpty_map]
    rw [nestingError?, nestingError?, List.find?_map]
    simp only [Function.comp_def, parent]
    cases terms.find? fun t => !t.children.isEmpty with
    | none => rfl
    | some t =>
      simp only [Option.map_some]
      rw [children_inScope, ih]

theorem Term.violations_inScope (t : Term Flat) : (t.inScope scope).violations = t.violations := by
  induction t using Term.induction with
  | node name subject limit children ih =>
    have below : violationsFrom 0 [] (children.map (inScope scope)) = violationsFrom 0 [] children := by
      rw [violationsFrom_eq, violationsFrom_eq]
      exact Violations.eachFrom_map 0 [] ih
    rw [inScope, listInScope_eq, violations, violations, Attribute.check_inScope named, below,
      nestingError?_inScope, List.isEmpty_map, List.length_map]

theorem Term.checkTop_inScope (terms : List (Term Flat)) :
    checkTop [] (terms.map (inScope scope)) = checkTop [] terms := by
  have each : Violations.each violations (terms.map (inScope scope)) =
      Violations.each violations terms :=
    Violations.eachFrom_map 0 [] fun t _ => t.violations_inScope named
  rw [checkTop, checkTop, each, List.isEmpty_map, List.length_map]

theorem DeploymentSearch.violations_inScope (s : DeploymentSearch) :
    (s.inScope scope).violations = s.violations := by
  have filters : (s.inScope scope).filters.map Predicate.violations =
      s.filters.map Predicate.violations :=
    map_map_of_same (fun p => p.violations_inScope named) s.filters
  have sort : (s.inScope scope).sort.map SortKey.violations = s.sort.map SortKey.violations :=
    map_map_of_same (fun key => key.violations_inScope named) s.sort
  have attributes : (s.inScope scope).attributes.map Attribute.violations =
      s.attributes.map Attribute.violations :=
    map_map_of_same (fun a => a.violations_inScope named) s.attributes
  rw [DeviceSearch.violations, filters, sort, attributes]
  rfl

theorem DeploymentSummary.violations_inScope (s : DeploymentSummary) :
    (s.inScope scope).violations = s.violations := by
  have filters : (s.inScope scope).filters.map Predicate.violations =
      s.filters.map Predicate.violations :=
    map_map_of_same (fun p => p.violations_inScope named) s.filters
  have top : Term.checkTop [] (s.inScope scope).aggregations = Term.checkTop [] s.aggregations :=
    Term.checkTop_inScope named s.aggregations
  rw [DeviceSummary.violations, filters, top]
  rfl

end

/-! ## Queries -/

theorem Predicate.filter_inScope (p : Predicate Flat) : (p.inScope "").filter = p.filter := rfl

theorem SortKey.clauses_inScope (key : SortKey Flat) : (key.inScope "").clauses = key.clauses := rfl

theorem Attribute.projection_inScope (attributes : List (Attribute Flat)) :
    projection (attributes.map (inScope "")) = projection attributes := by
  have same (a : Attribute Flat) : (a.inScope "").variants.toList = a.variants.toList := rfl
  unfold projection
  rw [List.isEmpty_map, List.flatMap_map]
  simp only [same]

/-- A query for devices and one for deployments that ask for the same. What has to hold is the same,
up to the fields that tell the groups and the devices of a document. -/
structure DeploymentSearch.Mirrored (s : DeploymentSearch) (groups : List String)
    (devices deployments : Query) : Prop where
  must : ∃ shared,
    devices.must = shared ++ Clause.among "system_group_str" groups ++ Clause.among "id" s.deviceIds ∧
    deployments.must =
      shared ++ Clause.among "deployment_groups" groups ++ Clause.among "device_id" s.deviceIds
  mustNot : devices.mustNot = deployments.mustNot
  sort : devices.sort = deployments.sort
  offset : devices.offset = deployments.offset
  size : devices.size = deployments.size
  projection : devices.projection = deployments.projection
  nowhere : devices.geo = .none ∧ deployments.geo = .none

/-- What comes of the two searches: the same failure, or two queries that ask for the same. -/
inductive DeploymentSearch.Mirrors (s : DeploymentSearch) (groups : List String) :
    Except FilterError Query → Except FilterError Query → Prop where
  | refused (problem : FilterError) : Mirrors s groups (.error problem) (.error problem)
  | built {devices deployments : Query} :
    s.Mirrored groups devices deployments → Mirrors s groups (.ok devices) (.ok deployments)

theorem DeploymentSearch.query_mirrors (s : DeploymentSearch) (groups : List String) :
    s.Mirrors groups ((s.inScope "").query groups) (s.query groups) := by
  have filters : (s.inScope "").filters.mapM Predicate.filter = s.filters.mapM Predicate.filter := by
    rw [inScope, List.mapM_map]
    simp only [Function.comp_def, Predicate.filter_inScope]
  have sort : (s.inScope "").sort.flatMap SortKey.clauses = s.sort.flatMap SortKey.clauses := by
    rw [inScope, List.flatMap_map]
    simp only [SortKey.clauses_inScope]
  have projection : Attribute.projection (s.inScope "").attributes =
      Attribute.projection s.attributes :=
    Attribute.projection_inScope s.attributes
  have groupField : DeviceSearch.groupField = "system_group_str" := by decide
  rw [DeviceSearch.query_eq, DeploymentSearch.query_eq, filters]
  cases s.filters.mapM Predicate.filter with
  | error problem => exact .refused problem
  | ok found =>
    refine .built ⟨⟨found.flatMap Filter.must, ?_, ?_⟩, rfl, sort, rfl, rfl, projection, rfl, rfl⟩
    · rw [List.append_assoc, ← groupField]
      rfl
    · rw [List.append_assoc]
      rfl

/-- In a named scope a flat request, or a part of one, is faulty exactly as it is without. And every
search for deployments fails as the search for devices does that asks for the same outside of all
scopes, or both make the same query, up to the fields of the groups and of the devices. -/
theorem deployments_mirror_devices :
    (∀ scope, scope ≠ "" →
      (∀ p : Predicate Flat, (p.inScope scope).violations = p.violations) ∧
      (∀ key : SortKey Flat, (key.inScope scope).violations = key.violations) ∧
      (∀ a : Attribute Flat, (a.inScope scope).violations = a.violations) ∧
      (∀ t : Term Flat, (t.inScope scope).violations = t.violations) ∧
      (∀ s : DeploymentSearch, (s.inScope scope).violations = s.violations) ∧
      ∀ s : DeploymentSummary, (s.inScope scope).violations = s.violations) ∧
    ∀ (s : DeploymentSearch) (groups : List String),
      s.Mirrors groups ((s.inScope "").query groups) (s.query groups) := by
  constructor
  · intro scope named
    refine ⟨?_, ?_, ?_, ?_, ?_, ?_⟩
    · exact fun p => p.violations_inScope named
    · exact fun key => key.violations_inScope named
    · exact fun a => a.violations_inScope named
    · exact fun t => t.violations_inScope named
    · exact fun s => s.violations_inScope named
    · exact fun s => s.violations_inScope named
  · exact DeploymentSearch.query_mirrors

/-- Buckets of deployments with a fault at every depth. -/
def Term.faulty : Term Flat :=
  mk "status" ⟨.flat, "device_status"⟩ 0 [mk "" ⟨.flat, ""⟩ (-1) [mk "phase" ⟨.flat, ""⟩ 0 []]]

theorem deployments_mirror_devices_faulty :
    "inventory" ≠ "" ∧ Term.faulty.violations ≠ [] ∧
      (Term.faulty.inScope "inventory").violations = Term.faulty.violations := by
  have named : "inventory" ≠ "" := by decide
  have wrong : Term.faulty.violations ≠ [] := List.cons_ne_nil _ _
  exact ⟨named, wrong, (deployments_mirror_devices.1 "inventory" named).2.2.2.1 _⟩

end FleetSearch
