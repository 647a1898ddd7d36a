/-! # Tables

Entries kept in the order of their names, one for each name: the shape of every listing whose
order is shown to a client. -/
namespace FleetSearch

/-- The order of names: the first differing character decides by its code point, and a name comes
before its own extensions. -/
def nameBefore : List Char → List Char → Bool
  | [], [] => false
  | [], _ :: _ => true
  | _ :: _, [] => false
  | a :: s, b :: t => decide (a.toNat < b.toNat) || (a == b && nameBefore s t)

namespace Table

variable {α : Type}

/-- Puts an entry in its place; an entry of the same name is replaced. -/
def insert (entries : List (String × α)) (name : String) (entry : α) : List (String × α) :=
  match entries with
  | [] => [(name, entry)]
  | (other, kept) :: rest =>
    if name = other then (name, entry) :: rest
    else if nameBefore name.toList other.toList then (name, entry) :: (other, kept) :: rest
    else (other, kept) :: insert rest name entry

/-- Of several entries of one name the last is kept. -/
def ofList (entries : List (String × α)) : List (String × α) :=
  entries.foldl (fun table entry => insert table entry.1 entry.2) []

theorem insert_ne_nil (entries : List (String × α)) (name : String) (entry : α) :
    insert entries name entry ≠ [] := by
  cases entries with
  | nil => exact List.cons_ne_nil _ _
  | cons head rest =>
    rw [insert]
    split
    · exact List.cons_ne_nil _ _
    · split <;> exact List.cons_ne_nil _ _

theorem ofList_ne_nil {entries : List (String × α)} (present : entries ≠ []) :
    ofList entries ≠ [] := by
  obtain ⟨before, last, rfl⟩ := (List.eq_nil_or_concat entries).resolve_left present
  rw [List.concat_eq_append, ofList, List.foldl_append]
  exact insert_ne_nil _ _ _

theorem map_insert {β : Type} (f : α → β) (entries : List (String × α)) (name : String) (entry : α) :
    (insert entries name entry).map (fun e => (e.1, f e.2)) =
      insert (entries.map fun e => (e.1, f e.2)) name (f entry) := by
  induction entries with
  | nil => rfl
  | cons head rest ih =>
    rw [insert, List.map_cons, insert]
    split
    · rfl
    · split
      · rfl
      · rw [List.map_cons, ih]

/-- What is made of the entries of a table is a table of what is made of them. -/
theorem map_ofList {β : Type} (f : α → β) (entries : List (String × α)) :
    (ofList entries).map (fun e => (e.1, f e.2)) = ofList (entries.map fun e => (e.1, f e.2)) := by
  have step (table : List (String × α)) :
      (entries.foldl (fun table e => insert table e.1 e.2) table).map (fun e => (e.1, f e.2)) =
        (entries.map fun e => (e.1, f e.2)).foldl (fun table e => insert table e.1 e.2)
          (table.map fun e => (e.1, f e.2)) := by
    induction entries generalizing table with
    | nil => rfl
    | cons head rest ih => rw [List.foldl_cons, ih, map_insert, List.map_cons, List.foldl_cons]
  exact step []

theorem lookup_insert_self (entries : List (String × α)) (name : String) (entry : α) :
    (insert entries name entry).lookup name = some entry := by
  induction entries with
  | nil => simp [insert]
  | cons head rest ih =>
    obtain ⟨other, kept⟩ := head
    rw [insert]
    split
    · simp
    · rename_i differs
      split
      · simp
      · have apart : (name == other) = false := by simp [differs]
        rw [List.lookup_cons, apart]
        exact ih

theorem lookup_insert_other (entries : List (String × α)) {name wanted : String} (entry : α)
    (apart : wanted ≠ name) :
    (insert entries name entry).lookup wanted = entries.lookup wanted := by
  have apart' : (wanted == name) = false := by simp [apart]
  induction entries with
  | nil => simp [insert, List.lookup_cons, apart']
  | cons head rest ih =>
    obtain ⟨other, kept⟩ := head
    rw [insert]
    split
    · rename_i same
      subst same
      simp [List.lookup_cons, apart']
    · split
      · simp [List.lookup_cons, apart']
      · rw [List.lookup_cons, List.lookup_cons, ih]

/-- A new entry stands between those that come before it and those that come after it. -/
theorem insert_between {before after : List (String × α)} {name : String}
    (late : ∀ entry ∈ before, name ≠ entry.1 ∧ nameBefore name.toList entry.1.toList = false)
    (early : ∀ entry ∈ after, name ≠ entry.1 ∧ nameBefore name.toList entry.1.toList = true)
    (entry : α) : insert (before ++ after) name entry = before ++ (name, entry) :: after := by
  induction before with
  | nil =>
    cases after with
    | nil => rfl
    | cons next rest =>
      obtain ⟨apart, before⟩ := early next List.mem_cons_self
      rw [List.nil_append, insert, if_neg apart, if_pos before]
      rfl
  | cons head before ih =>
    obtain ⟨⟨apart, after⟩, others⟩ := List.forall_mem_cons.mp late
    rw [List.cons_append, insert, if_neg apart, if_neg (by simp [after]), ih others]
    rfl

end Table

end FleetSearch
