import FleetSearch.Proofs.Operands

/-! # Values as they are read

The value of a payload has its members in the order of their names, each name once. Such a value is
read again as it is written. -/
namespace FleetSearch

/-! ## Tables in order -/

theorem nameBefore_iff_lt (s t : List Char) : nameBefore s t = true ↔ s < t := by
  induction s generalizing t with
  | nil => cases t <;> simp [nameBefore]
  | cons a s ih =>
    cases t with
    | nil => simp [nameBefore]
    | cons b t =>
      rw [List.cons_lt_cons_iff, ← ih]
      simp only [nameBefore, Bool.or_eq_true, Bool.and_eq_true, decide_eq_true_eq, beq_iff_eq]
      rfl

namespace Table

variable {α : Type}

/-- Every name comes before all later ones. -/
def Ordered (entries : List (String × α)) : Prop :=
  entries.Pairwise fun a b => a.1.toList < b.1.toList

theorem Ordered.nodup {entries : List (String × α)} (ordered : Ordered entries) :
    (entries.map Prod.fst).Nodup := by
  refine List.pairwise_map.mpr (ordered.imp ?_)
  intro a b before same
  rw [same] at before
  exact List.lt_irrefl _ before

theorem mem_of_mem_insert {entries : List (String × α)} {name : String} {entry : α}
    {found : String × α} (member : found ∈ insert entries name entry) :
    found = (name, entry) ∨ found ∈ entries := by
  induction entries with
  | nil => exact .inl (List.mem_singleton.mp member)
  | cons head rest ih =>
    obtain ⟨other, kept⟩ := head
    rw [insert] at member
    split at member
    · obtain rfl | member := List.mem_cons.mp member
      · exact .inl rfl
      · exact .inr (List.mem_cons_of_mem _ member)
    · split at member
      · exact List.mem_cons.mp member
      · obtain rfl | member := List.mem_cons.mp member
        · exact .inr List.mem_cons_self
        · exact (ih member).imp_right (List.mem_cons_of_mem _)

theorem insert_ordered {entries : List (String × α)} (ordered : Ordered entries) (name : String)
    (entry : α) : Ordered (insert entries name entry) := by
  induction entries with
  | nil => exact List.pairwise_singleton _ _
  | cons head rest ih =>
    obtain ⟨other, kept⟩ := head
    obtain ⟨first, others⟩ := List.pairwise_cons.mp ordered
    rw [insert]
    split
    · rename_i same
      subst same
      exact List.pairwise_cons.mpr ⟨first, others⟩
    · rename_i apart
      split
      · rename_i before
        have before := (nameBefore_iff_lt _ _).mp before
        refine List.pairwise_cons.mpr ⟨?_, ordered⟩
        intro later member
        obtain rfl | member := List.mem_cons.mp member
        · exact before
        · exact List.lt_trans before (first later member)
      · rename_i late
        have after : other.toList < name.toList := by
          rw [nameBefore_iff_lt, List.not_lt] at late
          by_contra early
          rw [List.not_lt] at early
          exact apart (String.toList_inj.mp (List.le_antisymm early late))
        refine List.pairwise_cons.mpr ⟨?_, ih others⟩
        intro later member
        obtain rfl | member := mem_of_mem_insert member
        · exact after
        · exact first later member

theorem foldl_insert_ordered {table : List (String × α)} (ordered : Ordered table)
    (entries : List (String × α)) :
    Ordered (entries.foldl (fun table entry => insert table entry.1 entry.2) table) := by
  induction entries generalizing table with
  | nil => exact ordered
  | cons head rest ih => exact ih (insert_ordered ordered head.1 head.2)

theorem ofList_ordered (entries : List (String × α)) : Ordered (ofList entries) :=
  foldl_insert_ordered .nil entries

theorem mem_of_mem_foldl_insert {table entries : List (String × α)} {found : String × α}
    (member : found ∈ entries.foldl (fun table entry => insert table entry.1 entry.2) table) :
    found ∈ table ∨ found ∈ entries := by
  induction entries generalizing table with
  | nil => exact .inl member
  | cons head rest ih =>
    obtain earlier | later := ih member
    · obtain rfl | earlier := mem_of_mem_insert earlier
      · exact .inr List.mem_cons_self
      · exact .inl earlier
    · exact .inr (List.mem_cons_of_mem _ later)

theorem mem_of_mem_ofList {entries : List (String × α)} {found : String × α}
    (member : found ∈ ofList entries) : found ∈ entries := by
  obtain absent | member := mem_of_mem_foldl_insert member
  · cases absent
  · exact member

/-- Entries that come in order are put one behind the other. -/
theorem foldl_insert_of_ordered {table entries : List (String × α)}
    (ordered : Ordered (table ++ entries)) :
    entries.foldl (fun table entry => insert table entry.1 entry.2) table = table ++ entries := by
  induction entries generalizing table with
  | nil => exact (List.append_nil table).symm
  | cons head rest ih =>
    have late : ∀ entry ∈ table, head.1 ≠ entry.1 ∧
        nameBefore head.1.toList entry.1.toList = false := by
      intro entry member
      have before := (List.pairwise_append.mp ordered).2.2 entry member head List.mem_cons_self
      constructor
      · intro same
        rw [same] at before
        exact List.lt_irrefl _ before
      · rw [← Bool.not_eq_true, nameBefore_iff_lt]
        exact List.lt_asymm before
    have placed := insert_between late (List.forall_mem_nil _) head.2
    rw [List.append_nil] at placed
    rw [List.append_cons] at ordered
    rw [List.foldl_cons, placed, ih ordered, ← List.append_cons]

theorem ofList_of_ordered {entries : List (String × α)} (ordered : Ordered entries) :
    ofList entries = entries := foldl_insert_of_ordered ordered

end Table

/-! ## Written values -/

namespace Payload

theorem memberValues?_ofMembers {members : List (String × Json)}
    (back : ∀ member ∈ members, (ofJson member.2).value? = some member.2) :
    memberValues? (ofMembers members) = some members := by
  induction members with
  | nil => rfl
  | cons head rest ih =>
    obtain ⟨name, value⟩ := head
    obtain ⟨first, others⟩ := List.forall_mem_cons.mp back
    rw [ofMembers, memberValues?, first, ih others]
    rfl

mutual

/-- A value that was read is read again as it is written. -/
theorem value?_ofJson {payload : Payload} {value : Json} (known : payload.value? = some value) :
    (ofJson value).value? = some value := by
  cases payload with
  | array items =>
    obtain ⟨values, inner, rfl⟩ := Option.map_eq_some_iff.mp known
    rw [ofJson, value?, values?_ofItems inner]
    rfl
  | object members =>
    obtain ⟨values, inner, rfl⟩ := Option.map_eq_some_iff.mp known
    have back : ∀ member ∈ Table.ofList values, (ofJson member.2).value? = some member.2 :=
      fun member found => value?_of_memberValues? inner member (Table.mem_of_mem_ofList found)
    rw [ofJson, value?, memberValues?_ofMembers back, Option.map_some,
      Table.ofList_of_ordered (Table.ofList_ordered values)]
  | unreadable => cases known
  | _ => cases known; rfl

theorem values?_ofItems {items : List Payload} {values : List Json}
    (known : values? items = some values) : values? (ofItems values) = some values := by
  cases items with
  | nil => cases known; rfl
  | cons item rest =>
    obtain ⟨value, first, known⟩ := Option.bind_eq_some_iff.mp known
    obtain ⟨others, inner, known⟩ := Option.bind_eq_some_iff.mp known
    cases known
    rw [ofItems, values?, value?_ofJson first, values?_ofItems inner]
    rfl

theorem value?_of_memberValues? {members : List (String × Payload)} {values : List (String × Json)}
    (known : memberValues? members = some values) :
    ∀ member ∈ values, (ofJson member.2).value? = some member.2 := by
  cases members with
  | nil => cases known; exact List.forall_mem_nil _
  | cons head rest =>
    obtain ⟨name, item⟩ := head
    obtain ⟨value, first, known⟩ := Option.bind_eq_some_iff.mp known
    obtain ⟨others, inner, known⟩ := Option.bind_eq_some_iff.mp known
    cases known
    exact List.forall_mem_cons.mpr ⟨value?_ofJson first, value?_of_memberValues? inner⟩

end

end Payload

end FleetSearch
