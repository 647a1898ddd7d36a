import FleetSearch.Json.Payload

/-! # Records

A record is sent as an object of its fields or as an array of them in order. Fields that are left
out are none, unknown members are not looked at, and a field given twice is refused. -/
namespace FleetSearch

/-- The fields that a payload gives, by name. -/
structure Record where
  entries : List (String × Payload)
  deriving Repr

namespace Payload

def distinct : List String → Bool
  | [] => true
  | name :: rest => !rest.contains name && distinct rest

theorem distinct_iff_nodup (names : List String) : distinct names = true ↔ names.Nodup := by
  induction names with
  | nil => simp [distinct]
  | cons name rest ih => simp [distinct, ih]

/-- The known members of an object, none of them twice. -/
def knownMembers? (fields : List String) (members : List (String × Payload)) : Option Record :=
  let known := members.filter (fun member => fields.contains member.1)
  if distinct (known.map Prod.fst) then some ⟨known⟩ else none

/-- The record of a payload, of which an array gives at least the first `least` fields. -/
def recordFrom? (least : Nat) (fields : List String) : Payload → Option Record
  | .object members => knownMembers? fields members
  | .array items =>
    if least ≤ items.length ∧ items.length ≤ fields.length then some ⟨fields.zip items⟩ else none
  | _ => none

def record? (fields : List String) (payload : Payload) : Option Record :=
  payload.recordFrom? 0 fields

end Payload

namespace Record

def get? (r : Record) (field : String) : Option Payload := r.entries.lookup field

/-- A field as it is read; `absent` where it is left out. -/
def field {α : Type} (r : Record) (field : String) (absent : α) (read : Payload → Option α) :
    Option α :=
  match r.get? field with
  | none => some absent
  | some payload => read payload

def string (r : Record) (field : String) : Option String := r.field field "" Payload.string?

def int64 (r : Record) (field : String) : Option Int := r.field field 0 Payload.int64?

def list {α : Type} (r : Record) (field : String) (read : Payload → Option α) : Option (List α) :=
  r.field field [] (Payload.list? read)

def strings (r : Record) (field : String) : Option (List String) := r.list field Payload.string?

def optional {α : Type} (r : Record) (field : String) (read : Payload → Option α) :
    Option (Option α) :=
  r.field field none (Payload.optional? read)

end Record

namespace Payload

/-- What a record holds is smaller than what it was read from. -/
theorem sizeOf_of_get? {payload found : Payload} {fields : List String} {r : Record}
    {field : String}
    (read : payload.record? fields = some r) (got : r.get? field = some found) :
    sizeOf found < sizeOf payload := by
  have smaller (entries : List (String × Payload)) (h : entries.lookup field = some found) :
      ∃ name, (name, found) ∈ entries := by
    induction entries with
    | nil => simp at h
    | cons entry rest ih =>
      obtain ⟨name, item⟩ := entry
      rw [List.lookup_cons] at h
      split at h
      · exact ⟨name, by simp_all⟩
      · obtain ⟨name', member⟩ := ih h
        exact ⟨name', List.mem_cons_of_mem _ member⟩
  obtain ⟨name, member⟩ := smaller r.entries got
  cases payload with
  | object members =>
    simp only [record?, recordFrom?, knownMembers?] at read
    split at read
    · cases read
      have within := List.sizeOf_lt_of_mem (List.mem_filter.mp member).1
      simp only [Prod.mk.sizeOf_spec] at within
      simp only [Payload.object.sizeOf_spec]
      omega
    · simp at read
  | array items =>
    simp only [record?, recordFrom?] at read
    split at read
    · cases read
      have within := List.sizeOf_lt_of_mem (List.of_mem_zip member).2
      simp only [Payload.array.sizeOf_spec]
      omega
    · simp at read
  | _ => simp [record?, recordFrom?] at read

end Payload

end FleetSearch
