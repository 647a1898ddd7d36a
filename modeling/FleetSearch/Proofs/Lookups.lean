import FleetSearch.Proofs.Document
import FleetSearch.Proofs.Values
import Mathlib.Data.Finset.Dedup
import Mathlib.Data.Finset.Card

/-! # Tables by their names

What a table holds under a name is the last entry that was put there. So a table is told by its
look-ups, it has as many entries as there were names, and entries with names of their own are all
kept. -/
namespace FleetSearch.Table

variable {α : Type}

/-- Entries in order are told by what is found under each name. -/
theorem Ordered.eq_of_lookup {a b : List (String × α)} (ordered : Ordered a) (ordered' : Ordered b)
    (same : ∀ name, a.lookup name = b.lookup name) : a = b := by
  have perm : a.Perm b := by
    refine (List.perm_ext_iff_of_nodup ordered.nodup.of_map ordered'.nodup.of_map).mpr ?_
    rintro ⟨name, entry⟩
    rw [← lookup_eq_some_iff_mem ordered.nodup, ← lookup_eq_some_iff_mem ordered'.nodup, same]
  refine perm.eq_of_pairwise ?_ ordered ordered'
  intro x y _ _ before after
  exact absurd (List.lt_trans before after) (List.lt_irrefl _)

theorem lookup_singleton (name : String) (entry : α) (wanted : String) :
    [(name, entry)].lookup wanted = if wanted = name then some entry else none := by
  by_cases same : wanted = name
  · simp [same]
  · have apart : (wanted == name) = false := by simp [same]
    simp [same, List.lookup_cons, apart]

theorem lookup_insert (entries : List (String × α)) (name wanted : String) (entry : α) :
    (insert entries name entry).lookup wanted =
      if wanted = name then some entry else entries.lookup wanted := by
  split
  · rename_i same
    rw [same, lookup_insert_self]
  · rename_i apart
    exact lookup_insert_other entries entry apart

/-- Entries of two names are put in either order. -/
theorem Ordered.insert_comm {entries : List (String × α)} (ordered : Ordered entries)
    {name other : String} (apart : name ≠ other) (entry entry' : α) :
    insert (insert entries name entry) other entry' =
      insert (insert entries other entry') name entry := by
  have left : Ordered (insert (insert entries name entry) other entry') :=
    insert_ordered (insert_ordered ordered name entry) other entry'
  have right : Ordered (insert (insert entries other entry') name entry) :=
    insert_ordered (insert_ordered ordered other entry') name entry
  apply left.eq_of_lookup right
  intro wanted
  simp only [lookup_insert]
  split
  · rename_i found
    rw [if_neg (found ▸ apart.symm)]
  · rfl

theorem lookup_foldl_insert (table entries : List (String × α)) (wanted : String) :
    (entries.foldl (fun table entry => insert table entry.1 entry.2) table).lookup wanted =
      (entries.reverse.lookup wanted).or (table.lookup wanted) := by
  induction entries generalizing table with
  | nil => rfl
  | cons head rest ih =>
    obtain ⟨name, entry⟩ := head
    rw [List.foldl_cons, ih, List.reverse_cons, List.lookup_append, lookup_singleton, lookup_insert,
      Option.or_assoc]
    congr 1
    split <;> rfl

/-- Under a name stands the last of its entries. -/
theorem lookup_ofList (entries : List (String × α)) (wanted : String) :
    (ofList entries).lookup wanted = entries.reverse.lookup wanted := by
  rw [ofList, lookup_foldl_insert]
  exact Option.or_none

theorem lookup_ofList_cons (name : String) (entry : α) (rest : List (String × α))
    (wanted : String) : (ofList ((name, entry) :: rest)).lookup wanted =
      ((ofList rest).lookup wanted).or (if wanted = name then some entry else none) := by
  rw [lookup_ofList, lookup_ofList, List.reverse_cons, List.lookup_append, lookup_singleton]

theorem lookup_eq_none_iff (entries : List (String × α)) (wanted : String) :
    entries.lookup wanted = none ↔ wanted ∉ entries.map Prod.fst := by
  rw [List.lookup_eq_none_iff, List.mem_map]
  constructor
  · rintro absent ⟨entry, member, rfl⟩
    simpa using absent entry member
  · intro absent entry member
    rw [bne_iff_ne]
    rintro rfl
    exact absent ⟨entry, member, rfl⟩

theorem mem_map_fst_ofList (entries : List (String × α)) (name : String) :
    name ∈ (ofList entries).map Prod.fst ↔ name ∈ entries.map Prod.fst := by
  rw [← not_iff_not, ← lookup_eq_none_iff, lookup_ofList, lookup_eq_none_iff, List.map_reverse,
    List.mem_reverse]

/-- Entries in order are as many as their names. -/
theorem Ordered.length_eq_card {entries : List (String × α)} (ordered : Ordered entries)
    {names : List String} (same : ∀ name, name ∈ entries.map Prod.fst ↔ name ∈ names) :
    entries.length = names.toFinset.card := by
  have named : (entries.map Prod.fst).toFinset = names.toFinset := by
    ext name
    rw [List.mem_toFinset, List.mem_toFinset, same]
  rw [← named, List.toFinset_card_of_nodup ordered.nodup, List.length_map]

/-- One entry for each name. -/
theorem length_ofList (entries : List (String × α)) :
    (ofList entries).length = (entries.map Prod.fst).toFinset.card :=
  (ofList_ordered entries).length_eq_card (mem_map_fst_ofList entries)

/-- Entries with names of their own are all kept. -/
theorem ofList_perm {entries : List (String × α)} (distinct : (entries.map Prod.fst).Nodup) :
    (ofList entries).Perm entries := by
  have reversed : (entries.reverse.map Prod.fst).Nodup := by
    rw [List.map_reverse, List.nodup_reverse]
    exact distinct
  refine (List.perm_ext_iff_of_nodup (ofList_ordered entries).nodup.of_map distinct.of_map).mpr ?_
  rintro ⟨name, entry⟩
  rw [← lookup_eq_some_iff_mem (ofList_ordered entries).nodup, lookup_ofList,
    lookup_eq_some_iff_mem reversed, List.mem_reverse]

end FleetSearch.Table
