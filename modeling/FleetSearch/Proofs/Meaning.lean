import FleetSearch.Proofs.Compiled
import FleetSearch.Proofs.Document
import FleetSearch.Proofs.Written

/-! # The meaning of a compiled condition

A search engine reads the condition of a body as the usual boolean combination of its clauses, and
the clauses on single fields in whatever way it likes. Under every such reading a document matches
exactly when it is what the request asks for. -/
namespace FleetSearch

/-- How a search engine reads single clauses, about documents of any kind. Geographic shapes are
clauses as they are written. -/
structure Engine (δ : Type) where
  matching : String → Json → δ → Prop
  range : String → String → Json → δ → Prop
  terms : String → Json → δ → Prop
  term : String → Json → δ → Prop
  regexp : String → Json → δ → Prop
  present : String → δ → Prop
  shape : Json → δ → Prop

namespace Engine

variable {δ : Type}

/-- A clause that is no boolean combination. -/
def leaf (E : Engine δ) (d : δ) : Json → Prop
  | .object [("match", .object [(field, value)])] => E.matching field value d
  | .object [("range", .object [(field, .object [(bound, value)])])] => E.range field bound value d
  | .object [("terms", .object [(field, values)])] => E.terms field values d
  | .object [("term", .object [(field, value)])] => E.term field value d
  | .object [("regexp", .object [(field, value)])] => E.regexp field value d
  | .object [("exists", .object [("field", .string field)])] => E.present field d
  | written => E.shape written d

/-- How many of the clauses that should hold have to: what is said, or else one where nothing
has to hold anyway. -/
def least (parts : List (String × Json)) : Nat :=
  match parts.lookup "minimum_should_match" with
  | some (.number (.int n)) => n.toNat
  | _ =>
    if (parts.map Prod.fst).any (fun name => name == "must" || name == "filter") then 0 else 1

mutual

/-- A document matches a condition. -/
def Holds (E : Engine δ) (d : δ) : Json → Prop
  | .object [("bool", .object parts)] => HoldsParts E d (least parts) parts
  | written => E.leaf d written

/-- All parts of a combination hold; one that is not known holds of no document. -/
def HoldsParts (E : Engine δ) (d : δ) (n : Nat) : List (String × Json) → Prop
  | [] => True
  | (name, .array clauses) :: rest =>
    (if name = "must" ∨ name = "filter" then HoldsAll E d clauses
      else if name = "must_not" then HoldsNone E d clauses
      else if name = "should" then HoldsAtLeast E d n clauses
      else False) ∧ HoldsParts E d n rest
  | (name, part) :: rest =>
    (if name = "filter" then Holds E d part else name = "minimum_should_match") ∧
      HoldsParts E d n rest

def HoldsAll (E : Engine δ) (d : δ) : List Json → Prop
  | [] => True
  | clause :: rest => Holds E d clause ∧ HoldsAll E d rest

def HoldsNone (E : Engine δ) (d : δ) : List Json → Prop
  | [] => True
  | clause :: rest => ¬ Holds E d clause ∧ HoldsNone E d rest

def HoldsAtLeast (E : Engine δ) (d : δ) (n : Nat) : List Json → Prop
  | [] => n = 0
  | clause :: rest =>
    Holds E d clause ∧ HoldsAtLeast E d (n - 1) rest ∨ HoldsAtLeast E d n rest

end

variable (E : Engine δ) (d : δ)

theorem holdsAll_iff (clauses : List Json) :
    E.HoldsAll d clauses ↔ ∀ clause ∈ clauses, E.Holds d clause := by
  induction clauses with
  | nil => simp [HoldsAll]
  | cons clause rest ih => simp [HoldsAll, ih]

theorem holdsNone_iff (clauses : List Json) :
    E.HoldsNone d clauses ↔ ∀ clause ∈ clauses, ¬ E.Holds d clause := by
  induction clauses with
  | nil => simp [HoldsNone]
  | cons clause rest ih => simp [HoldsNone, ih]

theorem holdsAtLeast_zero (clauses : List Json) : E.HoldsAtLeast d 0 clauses := by
  induction clauses with
  | nil => rfl
  | cons clause rest ih => exact Or.inr ih

theorem holdsAtLeast_one_iff (clauses : List Json) :
    E.HoldsAtLeast d 1 clauses ↔ ∃ clause ∈ clauses, E.Holds d clause := by
  induction clauses with
  | nil => simp [HoldsAtLeast]
  | cons clause rest ih => simp [HoldsAtLeast, ih, holdsAtLeast_zero]

theorem holdsParts_append (n : Nat) (a b : List (String × Json)) :
    E.HoldsParts d n (a ++ b) ↔ E.HoldsParts d n a ∧ E.HoldsParts d n b := by
  induction a with
  | nil => simp [HoldsParts]
  | cons head rest ih =>
    obtain ⟨name, part⟩ := head
    cases part <;> simp only [List.cons_append, HoldsParts, ih, and_assoc]

/-! ### Written clauses -/

@[simp] theorem holds_matching (field : String) (value : Json) :
    E.Holds d (Clause.matching field value).toJson ↔ E.matching field value d := Iff.rfl

@[simp] theorem holds_range (field : String) (bound : Bound) (value : Json) :
    E.Holds d (Clause.range field bound value).toJson ↔ E.range field bound.name value d := Iff.rfl

@[simp] theorem holds_terms (field : String) (values : Json) :
    E.Holds d (Clause.terms field values).toJson ↔ E.terms field values d := Iff.rfl

@[simp] theorem holds_term (field value : String) :
    E.Holds d (Clause.term field value).toJson ↔ E.term field (.string value) d := Iff.rfl

@[simp] theorem holds_regexp (field : String) (value : Json) :
    E.Holds d (Clause.regexp field value).toJson ↔ E.regexp field value d := Iff.rfl

@[simp] theorem holds_present (field : String) :
    E.Holds d (Clause.present field).toJson ↔ E.present field d := Iff.rfl

theorem listJson_eq (clauses : List Clause) : Clause.listJson clauses = clauses.map Clause.toJson := by
  induction clauses with
  | nil => rfl
  | cons clause rest ih => rw [Clause.listJson, ih, List.map_cons]

@[simp] theorem holds_anyOf (clauses : List Clause) :
    E.Holds d (Clause.anyOf clauses).toJson ↔ ∃ clause ∈ clauses, E.Holds d clause.toJson := by
  have inner : E.HoldsAtLeast d 1 (clauses.map Clause.toJson) ↔
      ∃ clause ∈ clauses, E.Holds d clause.toJson := by
    rw [holdsAtLeast_one_iff]
    constructor
    · rintro ⟨_, written, holds⟩
      obtain ⟨clause, h, rfl⟩ := List.mem_map.mp written
      exact ⟨clause, h, holds⟩
    · rintro ⟨clause, h, holds⟩
      exact ⟨clause.toJson, List.mem_map.mpr ⟨clause, h, rfl⟩, holds⟩
  change E.HoldsParts d 1 [("minimum_should_match", .number (.int 1)),
    ("should", .array (Clause.listJson clauses))] ↔ _
  simp [HoldsParts, listJson_eq, inner]

theorem holds_distance (f : DistanceFilter) : E.Holds d f.toJson ↔ E.shape f.toJson d := by
  obtain ⟨_ | circle⟩ := f <;> exact Iff.rfl

theorem holds_box (f : BoxFilter) : E.Holds d f.toJson ↔ E.shape f.toJson d := by
  obtain ⟨_ | box⟩ := f <;> exact Iff.rfl

/-! ### The condition of a query -/

theorem holdsParts_must (n : Nat) (clauses : List Json) :
    E.HoldsParts d n (Query.clausesMember "must" clauses) ↔
      ∀ clause ∈ clauses, E.Holds d clause := by
  unfold Query.clausesMember
  split
  · rename_i empty
    simp [HoldsParts, List.isEmpty_iff.mp empty]
  · simp [HoldsParts, holdsAll_iff]

theorem holdsParts_mustNot (n : Nat) (clauses : List Json) :
    E.HoldsParts d n (Query.clausesMember "must_not" clauses) ↔
      ∀ clause ∈ clauses, ¬ E.Holds d clause := by
  unfold Query.clausesMember
  split
  · rename_i empty
    simp [HoldsParts, List.isEmpty_iff.mp empty]
  · simp [HoldsParts, holdsNone_iff]

theorem holdsParts_object (n : Nat) (members : List (String × Json)) :
    E.HoldsParts d n [("filter", .object members)] ↔ E.Holds d (.object members) := by
  simp [HoldsParts]

theorem holdsParts_filter (n : Nat) (g : GeoFilters) :
    E.HoldsParts d n (Json.memberOf "filter" id g.clause?) ↔
      ∀ shape, g.clause? = some shape → E.shape shape d := by
  obtain ⟨_ | f, _ | box⟩ := g <;>
    simp only [GeoFilters.clause?, Json.memberOf, id_eq, Option.some.injEq, forall_eq']
  · simp [HoldsParts]
  · exact (E.holdsParts_object d n _).trans (E.holds_box d box)
  · exact (E.holdsParts_object d n _).trans (E.holds_distance d f)
  · exact (E.holdsParts_object d n _).trans (E.holds_distance d f)

/-- A document matches the condition of a query when all clauses that must hold do, no clause that
must not does, and it lies in the shape, if there is one. -/
theorem holds_condition (q : Query) :
    E.Holds d (Json.tagged "bool" (.object q.parts)) ↔
      (∀ clause ∈ q.must, E.Holds d clause.toJson) ∧
      (∀ clause ∈ q.mustNot, ¬ E.Holds d clause.toJson) ∧
      ∀ shape, q.geo.clause? = some shape → E.shape shape d := by
  change E.HoldsParts d (least q.parts) q.parts ↔ _
  generalize least q.parts = n
  simp only [Query.parts, holdsParts_append, holdsParts_must, holdsParts_mustNot,
    holdsParts_filter, List.forall_mem_map, and_assoc]

end Engine

/-! ## What a request asks for -/

namespace Predicate

variable {σ δ : Type} [Scoping σ]

/-- The field that a predicate compares. -/
def target (p : Predicate σ) : String := p.subject.comparedField p.operand.valueKind

/-- A document is as a predicate asks, in the words of the client. -/
def Asks (E : Engine δ) (d : δ) (p : Predicate σ) : Prop :=
  let value := p.operand.written
  match p.operator with
  | "$eq" => E.matching p.target value d
  | "$ne" => ¬ E.matching p.target value d
  | "$gt" => E.range p.target "gt" value d
  | "$gte" => E.range p.target "gte" value d
  | "$lt" => E.range p.target "lt" value d
  | "$lte" => E.range p.target "lte" value d
  | "$in" => E.terms p.target value d
  | "$nin" => ¬ E.terms p.target value d
  | "$regex" => E.regexp p.target value d
  | "$exists" =>
    match p.operand with
    | .boolean true =>
      ∃ kind, E.present (FieldName.of (Scoping.text p.subject.scope) p.subject.name kind) d
    | .boolean false =>
      ∀ kind, ¬ E.present (FieldName.of (Scoping.text p.subject.scope) p.subject.name kind) d
    | _ => False
  | _ => False

theorem resolve_eq {p : Predicate σ} {arrays : ArrayPolicy} {kinds : KindPolicy} {c : Comparison}
    (resolved : p.resolve arrays kinds = .ok c) : c = ⟨p.target, p.operand.toJson⟩ := by
  obtain ⟨subject, operator, operand⟩ := p
  have step (kind : ValueKind) (isArray : Bool) (known : operand.kind = .ok (kind, isArray)) :
      c = ⟨subject.comparedField kind, operand.toJson⟩ := by
    simp only [resolve, known, bind, Except.bind, Attribute.comparedField_eq] at resolved
    split at resolved
    · cases resolved
    · cases resolved
    · split at resolved
      · cases resolved
        rfl
      · cases resolved
  cases operand with
  | unusable value => cases resolved
  | _ => exact step _ _ rfl

/-- What an operator makes of a predicate: a comparison with the operand, or the presence that is
wanted. -/
inductive Built (p : Predicate σ) : Operator → Filter → Prop where
  | equal : Built p .equal ⟨[.matching p.target p.operand.written], []⟩
  | notEqual : Built p .notEqual ⟨[], [.matching p.target p.operand.written]⟩
  | range (bound : Bound) : Built p (.range bound) ⟨[.range p.target bound p.operand.written], []⟩
  | oneOf : Built p .oneOf ⟨[.terms p.target p.operand.written], []⟩
  | noneOf : Built p .noneOf ⟨[], [.terms p.target p.operand.written]⟩
  | pattern : Built p .pattern ⟨[.regexp p.target p.operand.written], []⟩
  | present (wanted : Bool) : p.operand = .boolean wanted →
    Built p .present (presence p.subject wanted)

theorem built_of_filterBy {p : Predicate σ} {operator : Operator} {f : Filter}
    (built : p.filterBy operator = .ok f) : p.Built operator f := by
  unfold filterBy at built
  cases resolved : p.resolve operator.arrays operator.kinds with
  | error problem =>
    rw [resolved] at built
    cases built
  | ok c =>
    rw [resolved] at built
    obtain rfl := resolve_eq resolved
    rw [p.operand.toJson_eq_written] at built
    cases operator with
    | present =>
      cases known : p.operand with
      | boolean wanted =>
        rw [known] at built
        cases built
        exact .present wanted known
      | _ =>
        rw [known] at built
        cases built
    | _ =>
      cases built
      constructor

/-- What becomes of a predicate is what one of the known operators makes of it. -/
theorem exists_built {p : Predicate σ} {f : Filter} (built : p.filter = .ok f) :
    ∃ operator, p.operator = Operator.name operator ∧ p.Built operator f := by
  unfold filter at built
  cases known : Operator.ofName? p.operator with
  | none =>
    rw [known] at built
    cases built
  | some operator =>
    rw [known] at built
    have named := List.find?_some known
    exact ⟨operator, (eq_of_beq named).symm, built_of_filterBy built⟩

variable (E : Engine δ) (d : δ)

/-- Presence of an attribute is presence under one of the fields of its kinds. -/
theorem exists_present_iff (subject : Attribute σ) :
    (∃ clause ∈ subject.variants.toList.map Clause.present, E.Holds d clause.toJson) ↔
      ∃ kind, E.present (FieldName.of (Scoping.text subject.scope) subject.name kind) d := by
  constructor
  · rintro ⟨_, listed, holds⟩
    obtain ⟨_, field, rfl⟩ := List.mem_map.mp listed
    obtain ⟨kind, _, rfl⟩ : ∃ kind ∈ ValueKind.all, subject.field kind = _ := List.mem_map.mp field
    exact ⟨kind, holds⟩
  · rintro ⟨kind, holds⟩
    have listed : kind ∈ ValueKind.all := by cases kind <;> decide
    have field : subject.field kind ∈ subject.variants.toList := List.mem_map.mpr ⟨kind, listed, rfl⟩
    exact ⟨_, List.mem_map.mpr ⟨_, field, rfl⟩, holds⟩

/-- The clauses of a filter say what its predicate asks. -/
theorem asks_iff {p : Predicate σ} {f : Filter} (built : p.filter = .ok f) :
    p.Asks E d ↔ (∀ clause ∈ f.must, E.Holds d clause.toJson) ∧
      ∀ clause ∈ f.mustNot, ¬ E.Holds d clause.toJson := by
  obtain ⟨operator, named, built⟩ := exists_built built
  cases built with
  | range bound => cases bound <;> simp [Asks, named, Operator.name, Bound.name]
  | present wanted known =>
    have present := exists_present_iff E d p.subject
    cases wanted with
    | true => simp [Asks, named, known, Operator.name, presence, -List.mem_map, present]
    | false =>
      have absent := not_congr present
      simp only [not_exists, not_and] at absent
      simp [Asks, named, known, Operator.name, presence, -List.mem_map, absent]
  | _ => simp [Asks, named, Operator.name]

/-- The clauses of all filters say what all predicates ask. -/
theorem asks_all_iff {predicates : List (Predicate σ)} {filters : List Filter}
    (built : predicates.mapM Predicate.filter = .ok filters) :
    (∀ p ∈ predicates, p.Asks E d) ↔
      (∀ clause ∈ filters.flatMap Filter.must, E.Holds d clause.toJson) ∧
      ∀ clause ∈ filters.flatMap Filter.mustNot, ¬ E.Holds d clause.toJson := by
  induction predicates generalizing filters with
  | nil => cases built; simp
  | cons p rest ih =>
    obtain ⟨f, fs, first, others, rfl⟩ := mapM_cons_eq_ok built
    rw [List.forall_mem_cons, asks_iff E d first, ih others, List.flatMap_cons, List.flatMap_cons,
      List.forall_mem_append, List.forall_mem_append]
    exact and_and_and_comm

end Predicate

/-! ## Requests -/

section

variable {δ : Type} (E : Engine δ) (d : δ)

/-- A field has one of some values, if there are any. -/
def HasOneOf (field : String) (values : List String) : Prop :=
  values ≠ [] → E.terms field (.array (values.map .string)) d

/-- A document is the tenant's, if there is one. -/
def IsOfTenant (context : Context) : Prop :=
  context.tenant ≠ "" → E.term "tenant_id" (.string context.tenant) d

/-- A document lies in the shape, a circle before a rectangle. -/
def LiesIn (g : GeoFilters) : Prop :=
  match g.distance, g.box with
  | some circle, _ => E.shape circle.written d
  | none, some box => E.shape box.written d
  | none, none => True

/-- A document is what a request asks for in its context. -/
def Request.Asks (context : Context) : Request → Prop
  | .deviceSearch search =>
    (∀ p ∈ search.filters, p.Asks E d) ∧ HasOneOf E d "system_group_str" context.groups ∧
      HasOneOf E d "id" search.deviceIds ∧ LiesIn E d search.geo ∧ IsOfTenant E d context
  | .deviceSummary summary =>
    (∀ p ∈ summary.filters, p.Asks E d) ∧ HasOneOf E d "system_group_str" context.groups ∧
      LiesIn E d summary.geo ∧ IsOfTenant E d context
  | .deploymentSearch search =>
    (∀ p ∈ search.filters, p.Asks E d) ∧ HasOneOf E d "deployment_groups" context.groups ∧
      HasOneOf E d "device_id" search.deviceIds ∧ IsOfTenant E d context ∧
      HasOneOf E d "deployment_id" search.deploymentIds
  | .deploymentSummary summary =>
    (∀ p ∈ summary.filters, p.Asks E d) ∧ HasOneOf E d "deployment_groups" context.groups ∧
      IsOfTenant E d context

theorem holds_among_iff (field : String) (values : List String) :
    (∀ clause ∈ Clause.among field values, E.Holds d clause.toJson) ↔
      HasOneOf E d field values := by
  unfold Clause.among HasOneOf
  split <;> simp_all [Clause.oneOf, Json.strings]

theorem holds_tenant_iff (context : Context) :
    (∀ clause ∈ context.tenantClauses, E.Holds d clause.toJson) ↔ IsOfTenant E d context := by
  unfold Context.tenantClauses IsOfTenant
  split <;> simp_all [FieldName.tenant]

theorem liesIn_iff (g : GeoFilters) :
    (∀ shape, g.clause? = some shape → E.shape shape d) ↔ LiesIn E d g := by
  rw [g.clause?_eq_written?]
  obtain ⟨_ | circle, _ | box⟩ := g <;> simp [GeoFilters.written?, LiesIn]

/-- The condition of a body says what its request asks for, clause by clause. -/
theorem holds_body_iff (s : Settings) (context : Context) (r : Request) {filters : List Filter}
    (built : r.filters = .ok filters) :
    E.Holds d (Json.tagged "bool" (.object (r.body s context filters).parts)) ↔
      r.Asks E d context := by
  rw [E.holds_condition d, Request.body, liesIn_iff, List.forall_mem_append]
  cases r <;> simp only [Request.filters] at built <;>
    simp only [Request.Asks, Request.restrictions, Request.geo, List.forall_mem_append,
      holds_among_iff, holds_tenant_iff, Predicate.asks_all_iff E d built]
  case deviceSearch search =>
    constructor
    · rintro ⟨⟨filtered, ⟨grouped, listed⟩, owned⟩, refused, located⟩
      exact ⟨⟨filtered, refused⟩, grouped, listed, located, owned⟩
    · rintro ⟨⟨filtered, refused⟩, grouped, listed, located, owned⟩
      exact ⟨⟨filtered, ⟨grouped, listed⟩, owned⟩, refused, located⟩
  case deviceSummary summary =>
    constructor
    · rintro ⟨⟨filtered, grouped, owned⟩, refused, located⟩
      exact ⟨⟨filtered, refused⟩, grouped, located, owned⟩
    · rintro ⟨⟨filtered, refused⟩, grouped, located, owned⟩
      exact ⟨⟨filtered, grouped, owned⟩, refused, located⟩
  case deploymentSearch search =>
    constructor
    · rintro ⟨⟨filtered, ⟨⟨grouped, listed⟩, owned⟩, deployed⟩, refused, _⟩
      exact ⟨⟨filtered, refused⟩, grouped, listed, owned, deployed⟩
    · rintro ⟨⟨filtered, refused⟩, grouped, listed, owned, deployed⟩
      exact ⟨⟨filtered, ⟨⟨grouped, listed⟩, owned⟩, deployed⟩, refused, trivial⟩
  case deploymentSummary summary =>
    constructor
    · rintro ⟨⟨filtered, grouped, owned⟩, refused, _⟩
      exact ⟨⟨filtered, refused⟩, grouped, owned⟩
    · rintro ⟨⟨filtered, refused⟩, grouped, owned⟩
      exact ⟨⟨filtered, grouped, owned⟩, refused, trivial⟩

end

/-- Whatever a search engine takes single clauses to mean, a document matches the compiled condition
exactly when it is what the request asks for. -/
theorem condition_means_request {s : Settings} {context : Context} {r : Request}
    {found : IndexSearch} (accepted : s.compile context r = .ok found) :
    ∃ condition, found.body.toJson.member? "query" = some condition ∧
      ∀ (δ : Type) (E : Engine δ) (d : δ), E.Holds d condition ↔ r.Asks E d context := by
  obtain ⟨_, filters, built, rfl⟩ := (Settings.compile_eq_ok_iff s context r found).mp accepted
  exact ⟨_, Query.member?_query rfl, fun _ E d => holds_body_iff E d s context r built⟩

/-- Which of two devices are nowhere, and new. -/
def Request.unlocated : Request :=
  .deviceSearch { DeviceSearch.ofPage 1 20 with
    filters := [⟨⟨⟨"inventory"⟩, "location"⟩, "$exists", .boolean false⟩,
      ⟨⟨⟨"identity"⟩, "status"⟩, "$nin", .strings ["retired", "broken"]⟩,
      ⟨⟨⟨"system"⟩, "created_ts"⟩, "$gte", .number (.int 1700000000)⟩]
    deviceIds := ["gate", "lift"] }

theorem condition_means_request_unlocated :
    ∃ found, Settings.standard.compile ⟨"acme", ["east"]⟩ .unlocated = .ok found ∧
      ∃ condition, found.body.toJson.member? "query" = some condition ∧
        ∀ (δ : Type) (E : Engine δ) (d : δ),
          E.Holds d condition ↔ Request.unlocated.Asks E d ⟨"acme", ["east"]⟩ := by
  obtain ⟨found, accepted⟩ : ∃ found,
      Settings.standard.compile ⟨"acme", ["east"]⟩ .unlocated = .ok found := ⟨_, rfl⟩
  exact ⟨found, accepted, condition_means_request accepted⟩

end FleetSearch
