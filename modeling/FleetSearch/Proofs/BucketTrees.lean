import FleetSearch.Proofs.Buckets
import FleetSearch.Proofs.Lookups
import FleetSearch.Proofs.Nesting
import Mathlib.Data.List.Perm.Basic

/-! # Trees of buckets

At every level of a tree the buckets are those of the last term of each name, with all that stands
below this term and nothing of the earlier ones. Where siblings have names of their own no term is
lost, and it does not matter in which order they stand. -/
namespace FleetSearch

/-! ## The buckets in a document -/

namespace Json

mutual

/-- What the buckets in an object count, each with the names that lead to it. -/
def buckets : Json → List (List String × Json)
  | .object members => namedBuckets members
  | _ => []

def namedBuckets : List (String × Json) → List (List String × Json)
  | [] => []
  | (name, bucket) :: rest =>
    (bucketParts bucket).map (fun found => (name :: found.1, found.2)) ++ namedBuckets rest

/-- What a bucket counts itself, and the buckets inside. -/
def bucketParts : Json → List (List String × Json)
  | .object parts => partBuckets parts
  | _ => []

def partBuckets : List (String × Json) → List (List String × Json)
  | [] => []
  | (part, value) :: rest =>
    (if part = "terms" then [([], value)] else if part = "aggs" then buckets value else []) ++
      partBuckets rest

end

end Json

namespace Aggregation

/-- What a bucket counts. -/
def countedJson (field : String) (size : Int) : Json :=
  .object [("field", .string field), ("size", .number (.int size))]

theorem sizeOfLimit_pos (limit : Int) : 0 < sizeOfLimit limit := by
  rw [sizeOfLimit_eq]
  split <;> omega

theorem toJson_eq (field : String) (size : Int) (inner : Aggregations) :
    (mk field size inner).toJson = .object ([("terms", countedJson field size)] ++
      if inner = [] then [] else [("aggs", listJson inner)]) := by
  cases inner <;> rfl

/-- The buckets of a list of aggregations: each with what it counts and with those inside. -/
theorem buckets_listJson (aggregations : Aggregations) :
    (listJson aggregations).buckets = aggregations.flatMap fun entry =>
      entry.2.toJson.bucketParts.map fun found => (entry.1 :: found.1, found.2) := by
  rw [listJson, Json.buckets]
  induction aggregations with
  | nil => rfl
  | cons entry rest ih =>
    rw [membersJson, Json.namedBuckets, ih, List.flatMap_cons]

theorem bucketParts_toJson (field : String) (size : Int) (inner : Aggregations) :
    (mk field size inner).toJson.bucketParts =
      ([], countedJson field size) :: (listJson inner).buckets := by
  rw [toJson_eq, Json.bucketParts]
  cases inner with
  | nil => rfl
  | cons entry rest =>
    simp [Json.partBuckets]

end Aggregation

/-! ## Trees -/

namespace Term

variable {σ : Type}

mutual

/-- The terms of a tree, each with the names that lead to it. -/
def nodes : Term σ → List (List String × Term σ)
  | mk name subject limit children =>
    ([name], mk name subject limit children) ::
      (nodesIn children).map fun node => (name :: node.1, node.2)

def nodesIn : List (Term σ) → List (List String × Term σ)
  | [] => []
  | t :: rest => nodes t ++ nodesIn rest

end

theorem nodesIn_eq (terms : List (Term σ)) : nodesIn terms = terms.flatMap nodes := by
  induction terms with
  | nil => rfl
  | cons t rest ih => rw [nodesIn, ih, List.flatMap_cons]

theorem nodes_eq (t : Term σ) :
    t.nodes = ([t.name], t) :: (nodesIn t.children).map fun node => (t.name :: node.1, node.2) := by
  obtain ⟨name, subject, limit, children⟩ := t
  rw [nodes]
  rfl

/-- At every level siblings have names of their own. -/
def Apart (terms : List (Term σ)) : Prop :=
  (terms.map name).Nodup ∧ ∀ t : Term σ, t.Within terms → (t.children.map name).Nodup

theorem apart_iff (terms : List (Term σ)) :
    Apart terms ↔ (terms.map name).Nodup ∧ ∀ t ∈ terms, Apart t.children := by
  constructor
  · rintro ⟨distinct, below⟩
    refine ⟨distinct, ?_⟩
    intro t member
    exact ⟨below t (.here member), fun u within => below u (.inside member within)⟩
  · rintro ⟨distinct, below⟩
    refine ⟨distinct, ?_⟩
    intro t within
    cases within with
    | here member => exact (below t member).1
    | inside member within => exact (below _ member).2 t within

theorem Apart.children {terms : List (Term σ)} (apart : Apart terms) {t : Term σ}
    (member : t ∈ terms) : Apart t.children :=
  ((apart_iff terms).mp apart).2 t member

theorem apart_cons_iff (t : Term σ) (rest : List (Term σ)) :
    Apart (t :: rest) ↔ t.name ∉ rest.map name ∧ Apart t.children ∧ Apart rest := by
  rw [apart_iff, apart_iff rest, List.map_cons, List.nodup_cons, List.forall_mem_cons]
  constructor
  · rintro ⟨⟨fresh, distinct⟩, first, others⟩
    exact ⟨fresh, first, distinct, others⟩
  · rintro ⟨fresh, first, distinct, others⟩
    exact ⟨⟨fresh, distinct⟩, first, others⟩

/-- The same terms, with siblings in another order anywhere in their trees. -/
inductive Shuffled : List (Term σ) → List (Term σ) → Prop where
  | nil : Shuffled [] []
  | cons (name : String) (subject : Attribute σ) (limit : Int)
    {children children' rest rest' : List (Term σ)} :
    Shuffled children children' → Shuffled rest rest' →
    Shuffled (mk name subject limit children :: rest) (mk name subject limit children' :: rest')
  | swap (t u : Term σ) (rest : List (Term σ)) : Shuffled (t :: u :: rest) (u :: t :: rest)
  | trans {terms others more : List (Term σ)} :
    Shuffled terms others → Shuffled others more → Shuffled terms more

theorem Shuffled.names {terms others : List (Term σ)} (shuffled : Shuffled terms others) :
    (terms.map name).Perm (others.map name) := by
  induction shuffled with
  | nil => exact .nil
  | cons _ _ _ _ _ _ ih => exact ih.cons _
  | swap t u rest => exact .swap _ _ _
  | trans _ _ first second => exact first.trans second

theorem Shuffled.apart {terms others : List (Term σ)} (shuffled : Shuffled terms others)
    (apart : Apart terms) : Apart others := by
  induction shuffled with
  | nil => exact apart
  | cons name subject limit _ below ih_children ih =>
    obtain ⟨fresh, first, others⟩ := (apart_cons_iff _ _).mp apart
    refine (apart_cons_iff _ _).mpr ⟨?_, ih_children first, ih others⟩
    rwa [← below.names.mem_iff]
  | swap t u rest =>
    obtain ⟨fresh, first, later⟩ := (apart_cons_iff _ _).mp apart
    obtain ⟨fresh', second, others⟩ := (apart_cons_iff _ _).mp later
    obtain ⟨differ, fresh⟩ := not_or.mp (mt List.mem_cons.mpr fresh)
    refine (apart_cons_iff _ _).mpr ⟨?_, second, (apart_cons_iff _ _).mpr ⟨fresh, first, others⟩⟩
    exact mt List.mem_cons.mp (not_or.mpr ⟨Ne.symm differ, fresh'⟩)
  | trans _ _ first second => exact second (first apart)

/-! ## What is built of a tree -/

section

variable (fieldOf : Attribute σ → String)

theorem aggregation_eq (t : Term σ) : t.aggregation fieldOf =
    .mk (fieldOf t.subject) (Aggregation.sizeOfLimit t.limit) (aggregations fieldOf t.children) := by
  obtain ⟨name, subject, limit, children⟩ := t
  rw [aggregation]
  rfl

theorem names_aggregations (terms : List (Term σ)) :
    ((terms.map fun t => (t.name, t.aggregation fieldOf)).map Prod.fst) = terms.map name := by
  rw [List.map_map]
  rfl

theorem aggregations_ordered (terms : List (Term σ)) :
    Table.Ordered (aggregations fieldOf terms) := by
  rw [aggregations_eq]
  exact Table.ofList_ordered _

theorem lookup_aggregations_eq_none_iff (terms : List (Term σ)) (name : String) :
    (aggregations fieldOf terms).lookup name = none ↔ name ∉ terms.map Term.name := by
  rw [aggregations_eq, Table.lookup_eq_none_iff, Table.mem_map_fst_ofList, names_aggregations]

/-- The terms that are put in front of others matter under names that the others do not have. -/
theorem lookup_aggregations_cons (t : Term σ) (rest : List (Term σ)) (name : String) :
    (aggregations fieldOf (t :: rest)).lookup name =
      ((aggregations fieldOf rest).lookup name).or
        (if name = t.name then some (t.aggregation fieldOf) else none) := by
  rw [aggregations_eq, aggregations_eq, List.map_cons, Table.lookup_ofList_cons]

theorem lookup_aggregations_append (before after : List (Term σ)) (name : String) :
    (aggregations fieldOf (before ++ after)).lookup name =
      ((aggregations fieldOf after).lookup name).or ((aggregations fieldOf before).lookup name) := by
  induction before with
  | nil => exact Option.or_none.symm
  | cons t rest ih =>
    rw [List.cons_append, lookup_aggregations_cons, ih, lookup_aggregations_cons, Option.or_assoc]

/-- A term that no later one shares its name with is kept. -/
theorem lookup_aggregations_last (before : List (Term σ)) (t : Term σ) {after : List (Term σ)}
    (last : t.name ∉ after.map name) :
    (aggregations fieldOf (before ++ t :: after)).lookup t.name = some (t.aggregation fieldOf) := by
  rw [lookup_aggregations_append, lookup_aggregations_cons,
    (lookup_aggregations_eq_none_iff fieldOf after t.name).mpr last]
  simp

theorem lookup_aggregations_of_mem {terms : List (Term σ)} (distinct : (terms.map name).Nodup)
    {t : Term σ} (member : t ∈ terms) :
    (aggregations fieldOf terms).lookup t.name = some (t.aggregation fieldOf) := by
  obtain ⟨before, after, rfl⟩ := List.append_of_mem member
  rw [List.map_append, List.map_cons] at distinct
  exact lookup_aggregations_last fieldOf before t
    (List.nodup_cons.mp (List.nodup_append.mp distinct).2.1).1

theorem length_aggregations (terms : List (Term σ)) :
    (aggregations fieldOf terms).length = (terms.map name).toFinset.card := by
  rw [aggregations_eq, Table.length_ofList, names_aggregations]

/-- Terms in another order make the same buckets. -/
theorem aggregations_of_shuffled {terms others : List (Term σ)} (shuffled : Shuffled terms others)
    (apart : Apart terms) : aggregations fieldOf terms = aggregations fieldOf others := by
  induction shuffled with
  | nil => rfl
  | cons name subject limit _ _ ih_children ih =>
    obtain ⟨_, first, others⟩ := (apart_cons_iff _ _).mp apart
    have below (children : List (Term σ)) : (mk name subject limit children).aggregation fieldOf =
        .mk (fieldOf subject) (Aggregation.sizeOfLimit limit) (aggregations fieldOf children) :=
      aggregation_eq fieldOf _
    refine (aggregations_ordered _ _).eq_of_lookup (aggregations_ordered _ _) ?_
    intro wanted
    rw [lookup_aggregations_cons, lookup_aggregations_cons, ih others, below, below,
      ih_children first]
    rfl
  | swap t u rest =>
    obtain ⟨fresh, _⟩ := (apart_cons_iff _ _).mp apart
    obtain ⟨differ, _⟩ := not_or.mp (mt List.mem_cons.mpr fresh)
    refine (aggregations_ordered _ _).eq_of_lookup (aggregations_ordered _ _) ?_
    intro wanted
    simp only [lookup_aggregations_cons, Option.or_assoc]
    congr 1
    by_cases first : wanted = t.name
    · subst first
      simp [differ]
    · simp [first]
  | trans earlier _ first second => exact (first apart).trans (second (earlier.apart apart))

end

/-! ## The document of a tree -/

section

variable (fieldOf : Attribute σ → String)

/-- A term as the document has it: the names that lead to it and what its bucket counts. -/
def written (node : List String × Term σ) : List String × Json :=
  (node.1, Aggregation.countedJson (fieldOf node.2.subject) (Aggregation.sizeOfLimit node.2.limit))

theorem map_written_nodes (t : Term σ) : t.nodes.map (written fieldOf) =
    ([t.name], Aggregation.countedJson (fieldOf t.subject) (Aggregation.sizeOfLimit t.limit)) ::
      ((nodesIn t.children).map (written fieldOf)).map fun found => (t.name :: found.1, found.2) := by
  rw [nodes_eq, List.map_cons, List.map_map, List.map_map]
  rfl

/-- The buckets of a term, under its name. -/
def bucketsOf (t : Term σ) : List (List String × Json) :=
  (t.aggregation fieldOf).toJson.bucketParts.map fun found => (t.name :: found.1, found.2)

theorem bucketsOf_eq (t : Term σ) : t.bucketsOf fieldOf =
    ([t.name], Aggregation.countedJson (fieldOf t.subject) (Aggregation.sizeOfLimit t.limit)) ::
      (Aggregation.listJson (aggregations fieldOf t.children)).buckets.map fun found =>
        (t.name :: found.1, found.2) := by
  rw [bucketsOf, aggregation_eq, Aggregation.bucketParts_toJson, List.map_cons]

/-- Every bucket of a document is there for a term. -/
theorem buckets_subset (terms : List (Term σ)) :
    (Aggregation.listJson (aggregations fieldOf terms)).buckets ⊆
      (nodesIn terms).map (written fieldOf) := by
  intro found listed
  rw [Aggregation.buckets_listJson, List.mem_flatMap] at listed
  obtain ⟨entry, kept, within⟩ := listed
  rw [aggregations_eq] at kept
  obtain ⟨t, member, rfl⟩ := List.mem_map.mp (Table.mem_of_mem_ofList kept)
  have smaller := sizeOf_children_lt member
  have inner := buckets_subset t.children
  have own : found ∈ t.nodes.map (written fieldOf) := by
    change found ∈ t.bucketsOf fieldOf at within
    rw [bucketsOf_eq] at within
    rw [map_written_nodes]
    obtain rfl | below := List.mem_cons.mp within
    · exact List.mem_cons_self
    · exact List.mem_cons_of_mem _ (List.map_subset _ inner below)
  rw [nodesIn_eq, List.map_flatMap]
  exact List.mem_flatMap.mpr ⟨t, member, own⟩
termination_by sizeOf terms

/-- Where siblings have names of their own, there is one bucket for each term. -/
theorem buckets_perm {terms : List (Term σ)} (apart : Apart terms) :
    (Aggregation.listJson (aggregations fieldOf terms)).buckets.Perm
      ((nodesIn terms).map (written fieldOf)) := by
  have distinct : ((terms.map fun t => (t.name, t.aggregation fieldOf)).map Prod.fst).Nodup := by
    rw [names_aggregations]
    exact apart.1
  have each : ∀ t ∈ terms, (t.bucketsOf fieldOf).Perm (t.nodes.map (written fieldOf)) := by
    intro t member
    have smaller := sizeOf_children_lt member
    have inner := buckets_perm (apart.children member)
    rw [bucketsOf_eq, map_written_nodes]
    exact (inner.map _).cons _
  rw [Aggregation.buckets_listJson, aggregations_eq, nodesIn_eq, List.map_flatMap]
  refine ((Table.ofList_perm distinct).flatMap_right _).trans ?_
  rw [List.flatMap_map]
  exact List.Perm.flatMap_left _ each
termination_by sizeOf terms

end

end Term

/-! ## The last term of a name -/

theorem Aggregation.member?_listJson {aggregations : Aggregations}
    (distinct : (aggregations.map Prod.fst).Nodup) (name : String) :
    (listJson aggregations).member? name = (aggregations.lookup name).map toJson := by
  have names : ((membersJson aggregations).map Prod.fst).Nodup := by
    rw [membersJson_eq, List.map_map]
    exact distinct
  rw [listJson, Json.member?_object names, membersJson_eq]
  clear names distinct
  induction aggregations with
  | nil => rfl
  | cons entry rest ih =>
    rw [List.map_cons, List.lookup_cons, List.lookup_cons, ih]
    split <;> rfl

/-- What is built of terms has the bucket of the last term of each name, over the field that is found
for its attribute, with what is built of its children. -/
structure LastWins {σ : Type} (fieldOf : Attribute σ → String)
    (build : List (Term σ) → Aggregations) : Prop where
  named : ∀ terms name, ((build terms).lookup name).isSome ↔ ∃ t ∈ terms, t.name = name
  last : ∀ before t after, (∀ later ∈ after, later.name ≠ t.name) →
    (build (before ++ t :: after)).lookup t.name =
      some (.mk (fieldOf t.subject) (if 0 < t.limit then t.limit else 10) (build t.children))
  distinct : ∀ terms, ((build terms).map Prod.fst).Nodup
  length : ∀ terms, (build terms).length = (terms.map Term.name).toFinset.card
  /-- The document has the same buckets, and those inside of one only if its term has children. -/
  document : ∀ terms name, (Aggregation.listJson (build terms)).member? name =
    ((build terms).lookup name).map Aggregation.toJson
  bucket : ∀ before t after, (∀ later ∈ after, later.name ≠ t.name) →
    (Aggregation.listJson (build (before ++ t :: after))).member? t.name = some (.object
      ([("terms", .object [("field", .string (fieldOf t.subject)),
          ("size", .number (.int (if 0 < t.limit then t.limit else 10)))])] ++
        if t.children = [] then [] else [("aggs", Aggregation.listJson (build t.children))]))
  positive : ∀ terms, ∀ found ∈ (Aggregation.listJson (build terms)).buckets,
    ∃ field size, 0 < size ∧
      found.2 = .object [("field", .string field), ("size", .number (.int size))]
  /-- Where siblings have names of their own, no term is lost and none is at another depth. -/
  kept : ∀ terms, Term.Apart terms →
    (Aggregation.listJson (build terms)).buckets.Perm
      ((Term.nodesIn terms).map (Term.written fieldOf)) ∧
    ∀ depth, ((Aggregation.listJson (build terms)).buckets.countP fun b => b.1.length = depth) =
      (Term.nodesIn terms).countP fun node => node.1.length = depth
  unordered : ∀ terms others, Term.Apart terms → Term.Shuffled terms others →
    Aggregation.listJson (build terms) = Aggregation.listJson (build others)

theorem Term.lastWins {σ : Type} (fieldOf : Attribute σ → String) :
    LastWins fieldOf (Term.aggregations fieldOf) := by
  have single (terms : List (Term σ)) : ((aggregations fieldOf terms).map Prod.fst).Nodup :=
    (aggregations_ordered fieldOf terms).nodup
  have entry (before : List (Term σ)) (t : Term σ) (after : List (Term σ))
      (last : ∀ later ∈ after, later.name ≠ t.name) :
      (aggregations fieldOf (before ++ t :: after)).lookup t.name = some (.mk (fieldOf t.subject)
        (if 0 < t.limit then t.limit else 10) (aggregations fieldOf t.children)) := by
    have fresh : t.name ∉ after.map name := by
      rintro again
      obtain ⟨later, member, same⟩ := List.mem_map.mp again
      exact last later member same
    rw [lookup_aggregations_last fieldOf before t fresh, aggregation_eq,
      Aggregation.sizeOfLimit_eq]
  have document (terms : List (Term σ)) (name : String) :=
    Aggregation.member?_listJson (single terms) name
  constructor
  case named =>
    intro terms name
    rw [Option.isSome_iff_ne_none, Ne, lookup_aggregations_eq_none_iff, Decidable.not_not,
      List.mem_map]
  case last => exact entry
  case distinct => exact single
  case length => exact length_aggregations fieldOf
  case document => exact document
  case bucket =>
    intro before t after last
    have childless : aggregations fieldOf t.children = [] ↔ t.children = [] := by
      constructor
      · intro none
        by_contra present
        exact aggregations_ne_nil fieldOf present none
      · intro none
        rw [none]
        rfl
    rw [document, entry before t after last, Option.map_some, Aggregation.toJson_eq]
    simp only [childless, Aggregation.countedJson]
  case positive =>
    intro terms found listed
    obtain ⟨node, _, rfl⟩ := List.mem_map.mp (buckets_subset fieldOf terms listed)
    exact ⟨_, _, Aggregation.sizeOfLimit_pos node.2.limit, rfl⟩
  case kept =>
    intro terms apart
    have perm := buckets_perm fieldOf apart
    refine ⟨perm, ?_⟩
    intro depth
    rw [perm.countP_eq, List.countP_map]
    rfl
  case unordered =>
    intro terms others apart shuffled
    rw [aggregations_of_shuffled fieldOf shuffled apart]

/-- Devices and deployments have the buckets of the last term of each name, over the field for the
strings of a device attribute, and over the attribute of a deployment as it stands. -/
theorem last_terms_win :
    LastWins (fun a : Attribute Scope => FieldName.of a.scope.name a.name .string)
      Term.deviceAggregations ∧
    LastWins (fun a : Attribute Flat => a.name) Term.deploymentAggregations :=
  ⟨Term.lastWins _, Term.lastWins _⟩

/-- Kinds of devices with two terms inside, and their states. -/
def Term.census : List (Term Scope) :=
  [.mk "kinds" ⟨⟨"inventory"⟩, "kind"⟩ 0
    [.mk "racks" ⟨⟨"tags"⟩, "rack"⟩ 5 [], .mk "rooms" ⟨⟨"tags"⟩, "room"⟩ 0 []],
    .mk "states" ⟨⟨"identity"⟩, "status"⟩ 3 []]

/-- The same terms the other way round, at both levels. -/
def Term.censusTurned : List (Term Scope) :=
  [.mk "states" ⟨⟨"identity"⟩, "status"⟩ 3 [],
    .mk "kinds" ⟨⟨"inventory"⟩, "kind"⟩ 0
      [.mk "rooms" ⟨⟨"tags"⟩, "room"⟩ 0 [], .mk "racks" ⟨⟨"tags"⟩, "rack"⟩ 5 []]]

/-- Four terms make four buckets in either order. Of two terms of one name the later one has the
bucket, without what stands below the earlier one. -/
theorem last_terms_win_census :
    (Term.Apart Term.census ∧ Term.Shuffled Term.census Term.censusTurned ∧
      Aggregation.listJson (Term.deviceAggregations Term.census) =
        Aggregation.listJson (Term.deviceAggregations Term.censusTurned) ∧
      (Aggregation.listJson (Term.deviceAggregations Term.census)).buckets.length = 4) ∧
    let kinds : Term Flat := .mk "same" ⟨.flat, "kind"⟩ 0 [.mk "states" ⟨.flat, "status"⟩ 0 []]
    let racks : Term Flat := .mk "same" ⟨.flat, "rack"⟩ (-5) []
    (∀ later ∈ ([] : List (Term Flat)), later.name ≠ racks.name) ∧
      (Aggregation.listJson (Term.deploymentAggregations [kinds, racks])).member? "same" = some
        (.object [("terms", .object [("field", .string "rack"), ("size", .number (.int 10))])]) := by
  constructor
  · have apart : Term.Apart Term.census := by
      have none : Term.Apart ([] : List (Term Scope)) := (Term.apart_iff []).mpr (by simp)
      simp only [Term.census, Term.apart_cons_iff, Term.children, none, and_true]
      decide
    have turned : Term.Shuffled Term.census Term.censusTurned :=
      .trans (.cons "kinds" _ 0 (.swap _ _ []) (.cons "states" _ 3 .nil .nil)) (.swap _ _ [])
    have law := last_terms_win.1
    exact ⟨apart, turned, law.unordered _ _ apart turned, (law.kept _ apart).1.length_eq⟩
  · intro kinds racks
    have last : ∀ later ∈ ([] : List (Term Flat)), later.name ≠ racks.name := List.forall_mem_nil _
    exact ⟨last, last_terms_win.2.bucket [kinds] racks [] last⟩

end FleetSearch
