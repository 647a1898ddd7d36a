import FleetSearch.Proofs.Compiled
import FleetSearch.Proofs.Document

/-! # Restriction to the context

What a client sends never loosens the restriction to the tenant and to the groups that a request
runs for. They come from the context alone, and members of a request that are none of its fields
have no effect on the answer. -/
namespace FleetSearch

/-! ## Only the fields of a request are read -/

namespace Record

/-- Two records in which every field is found alike. -/
def Alike (a b : Record) : Prop := ∀ field, a.get? field = b.get? field

end Record

namespace Payload

/-- Objects with the same known members, in whatever order, are read as alike records. -/
theorem record?_object_alike {fields : List String} {a b : List (String × Payload)}
    (same : (a.filter fun member => fields.contains member.1).Perm
      (b.filter fun member => fields.contains member.1)) :
    Option.Rel Record.Alike ((object a).record? fields) ((object b).record? fields) := by
  have names := same.map Prod.fst
  simp only [record?, recordFrom?, knownMembers?, distinct_iff_nodup, names.nodup_iff]
  split
  · rename_i distinct
    exact .some fun field => lookup_of_perm same (names.nodup_iff.mpr distinct) field
  · exact .none

/-- What is read off records field by field is the same for alike ones. -/
theorem bind_eq_of_alike {α : Type} {a b : Option Record} (alike : Option.Rel Record.Alike a b)
    (read : Record → Option α) (fieldwise : ∀ r r', Record.Alike r r' → read r = read r') :
    a >>= read = b >>= read := by
  cases alike with
  | none => rfl
  | some h => exact fieldwise _ _ h

end Payload

namespace Request

/-- The names that a request of a kind is decoded from. -/
def fields : Domain → RequestKind → List String
  | .devices, .search => DeviceSearch.fields
  | .devices, .summary => DeviceSummary.fields
  | .deployments, .search => DeploymentSearch.fields
  | .deployments, .summary => DeploymentSummary.fields

/-- The members of an object that are fields of a request. -/
def known (domain : Domain) (kind : RequestKind) (members : List (String × Payload)) :
    List (String × Payload) :=
  members.filter fun member => (fields domain kind).contains member.1

/-- Who asks, and for which groups, is no field of any request. -/
theorem context_not_mem_fields (domain : Domain) (kind : RequestKind) {name : String}
    (h : name ∈ ["tenant_id", "groups", "deployment_groups"]) : name ∉ fields domain kind := by
  have apart : ∀ name ∈ ["tenant_id", "groups", "deployment_groups"], name ∉ fields domain kind := by
    cases domain <;> cases kind <;> decide
  exact apart name h

theorem known_erase (domain : Domain) (kind : RequestKind) {name : String}
    (h : name ∉ fields domain kind) (value : Payload) (before after : List (String × Payload)) :
    known domain kind (before ++ (name, value) :: after) = known domain kind (before ++ after) := by
  simp [known, h]

theorem ofPayload?_object_congr (domain : Domain) (kind : RequestKind)
    {a b : List (String × Payload)} (same : (known domain kind a).Perm (known domain kind b)) :
    ofPayload? domain kind (.object a) = ofPayload? domain kind (.object b) := by
  have alike := Payload.record?_object_alike same
  cases domain <;> cases kind <;> refine congrArg (Option.map _) ?_ <;>
    refine Payload.bind_eq_of_alike alike _ fun r r' h => ?_ <;> unfold Record.Alike at h <;>
    simp only [Record.int64, Record.strings, Record.list, Record.optional, Record.field,
      GeoFilters.read?, h]

end Request

/-! ## The clauses that the context adds -/

/-- The field of a document that tells its groups. -/
def Domain.groupsField : Domain → String
  | .devices => "system_group_str"
  | .deployments => "deployment_groups"

namespace Request

theorem tenant_mem_restrictions {context : Context} (named : context.tenant ≠ "") (r : Request) :
    Clause.term "tenant_id" context.tenant ∈ r.restrictions context := by
  have clause : context.tenantClauses = [Clause.term "tenant_id" context.tenant] := by
    simp [Context.tenantClauses, FieldName.tenant, named]
  cases r <;> simp [restrictions, clause]

theorem groups_mem_restrictions {context : Context} (some_groups : context.groups ≠ [])
    (r : Request) :
    Clause.oneOf r.domain.groupsField context.groups ∈ r.restrictions context := by
  have clause (field : String) :
      Clause.among field context.groups = [Clause.oneOf field context.groups] := by
    simp [Clause.among, some_groups]
  have groupField : DeviceSearch.groupField = "system_group_str" := by decide
  cases r <;> simp [restrictions, clause, domain, Domain.groupsField, groupField,
    FieldName.deploymentGroups]

theorem domain_of_ofPayload? {domain : Domain} {kind : RequestKind} {payload : Payload}
    {r : Request} (read : ofPayload? domain kind payload = some r) : r.domain = domain := by
  cases domain <;> cases kind <;> obtain ⟨_, _, rfl⟩ := Option.map_eq_some_iff.mp read <;> rfl

end Request

/-- A body that finds nothing outside the tenant and the groups of a context. -/
structure Restricted (context : Context) (domain : Domain) (body : Json) : Prop where
  once : body.names.count "query" = 1
  clauses : ∃ must, body.at? ["query", "bool", "must"] = some (.array must) ∧
    .object [("term", .object [("tenant_id", .string context.tenant)])] ∈ must ∧
    (context.groups ≠ [] → .object [("terms", .object [(domain.groupsField,
      .array (context.groups.map .string))])] ∈ must)

namespace Settings

/-- What comes of a payload: nothing if it is no request of the kind that is asked for. -/
def answer (s : Settings) (context : Context) (domain : Domain) (kind : RequestKind)
    (payload : Payload) : Option (Except Refusal IndexSearch) :=
  (Request.ofPayload? domain kind payload).map (s.compile context)

theorem restricted_of_compile {s : Settings} {context : Context} {r : Request}
    {found : IndexSearch} (named : context.tenant ≠ "") (accepted : s.compile context r = .ok found) :
    Restricted context r.domain found.body.toJson := by
  obtain ⟨_, filters, _, rfl⟩ := (compile_eq_ok_iff s context r found).mp accepted
  have tenant := Request.tenant_mem_restrictions named r
  have must_ne : (r.body s context filters).must ≠ [] :=
    List.append_ne_nil_of_right_ne_nil _ (List.ne_nil_of_mem tenant)
  refine ⟨?_, _, Query.at?_must rfl must_ne, ?_, fun some_groups => ?_⟩
  · have distinct := Query.members_nodup (q := r.body s context filters) List.nodup_nil
    have written : "query" ∈ (r.body s context filters).members.map Prod.fst := by
      rw [Query.map_fst_members]
      exact List.mem_cons_self
    exact distinct.count.trans (if_pos written)
  · exact List.mem_map.mpr ⟨_, List.mem_append_right _ tenant, rfl⟩
  · exact List.mem_map.mpr
      ⟨_, List.mem_append_right _ (Request.groups_mem_restrictions some_groups r), rfl⟩

/-- No payload loosens the restriction to the tenant and the groups of the context. Members that
are no fields of the request change nothing, those that spell a tenant or groups among them. -/
theorem restriction_inescapable (s : Settings) (context : Context) (domain : Domain)
    (kind : RequestKind) :
    (∀ payload found, context.tenant ≠ "" →
      s.answer context domain kind payload = some (.ok found) →
      Restricted context domain found.body.toJson) ∧
    (∀ a b : List (String × Payload),
      (Request.known domain kind a).Perm (Request.known domain kind b) →
      s.answer context domain kind (.object a) = s.answer context domain kind (.object b)) ∧
    ∀ name ∈ ["tenant_id", "groups", "deployment_groups"], ∀ value before after,
      s.answer context domain kind (.object (before ++ (name, value) :: after)) =
        s.answer context domain kind (.object (before ++ after)) := by
  have unread (a b : List (String × Payload))
      (same : (Request.known domain kind a).Perm (Request.known domain kind b)) :
      s.answer context domain kind (.object a) = s.answer context domain kind (.object b) := by
    rw [answer, answer, Request.ofPayload?_object_congr domain kind same]
  refine ⟨?_, unread, ?_⟩
  · intro payload found named answered
    obtain ⟨r, read, accepted⟩ := Option.map_eq_some_iff.mp answered
    rw [← Request.domain_of_ofPayload? read]
    exact restricted_of_compile named accepted
  · intro name h value before after
    apply unread
    rw [Request.known_erase domain kind (Request.context_not_mem_fields domain kind h)]

/-- A filter as a search brings it. -/
def honest : List (String × Payload) :=
  [("filters", .array [.object [("attribute", .string "status"), ("type", .string "$ne"),
    ("value", .string "done")]])]

/-- The same search with a tenant and groups of its own. -/
def smuggling : List (String × Payload) :=
  ("tenant_id", .string "rival") :: honest ++ [("deployment_groups", .array [])]

theorem restriction_inescapable_smuggling :
    (∃ found, standard.answer ⟨"acme", ["east"]⟩ .deployments .search (.object smuggling) =
        some (.ok found) ∧
      Restricted ⟨"acme", ["east"]⟩ .deployments found.body.toJson) ∧
    (Request.known .deployments .search smuggling).Perm
      (Request.known .deployments .search honest) ∧
    standard.answer ⟨"acme", ["east"]⟩ .deployments .search (.object smuggling) =
      standard.answer ⟨"acme", ["east"]⟩ .deployments .search (.object honest) := by
  have inescapable := restriction_inescapable standard ⟨"acme", ["east"]⟩ .deployments .search
  obtain ⟨found, answered⟩ : ∃ found, standard.answer ⟨"acme", ["east"]⟩ .deployments .search
      (.object smuggling) = some (.ok found) := ⟨_, rfl⟩
  have same : (Request.known .deployments .search smuggling).Perm
      (Request.known .deployments .search honest) := .refl _
  exact ⟨⟨found, answered, inescapable.1 _ found (by decide) answered⟩, same,
    inescapable.2.1 _ _ same⟩

end Settings

end FleetSearch
