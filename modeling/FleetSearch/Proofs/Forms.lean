import FleetSearch.Geo
import FleetSearch.Proofs.Operands
import Mathlib.Data.List.Nodup
import Mathlib.Logic.Equiv.Defs

/-! # Forms

How the values of a type are sent: how they are read and how they are written. A value may be
written in another way than it was sent: a record that came as an array is written as an object,
fields that were left out are there and unknown members are not. From then on nothing changes. All
that is lost is a coordinate that is not finite, which has no text. -/
namespace FleetSearch

variable {α β : Type}

structure Form (α : Type) where
  read : Payload → Option α
  write : α → Json
  coordinates : α → List Coordinate

theorem Payload.optional?_ofJson (read : Payload → Option α) {value : Json}
    (apart : value ≠ .null) : optional? read (ofJson value) = (read (ofJson value)).map some := by
  cases value with
  | null => exact absurd rfl apart
  | _ => rfl

namespace Form

/-- What is written is read again, as something that is written alike. It is the value itself
exactly if all coordinates in it are finite. -/
def Settled (F : Form α) (x : α) : Prop :=
  ∃ y, F.read (.ofJson (F.write x)) = some y ∧ F.write y = F.write x ∧
    (y = x ↔ ∀ c ∈ F.coordinates x, c.isFinite = true)

/-- Whatever has been read is settled. -/
def Settles (F : Form α) : Prop := ∀ payload x, F.read payload = some x → F.Settled x

theorem settled_of_same {F : Form α} {x : α} (same : F.read (.ofJson (F.write x)) = some x)
    (none : F.coordinates x = []) : F.Settled x := by
  refine ⟨x, same, rfl, ?_⟩
  rw [none]
  exact iff_of_true rfl (List.forall_mem_nil _)

/-! ## Single values -/

def text : Form String := ⟨Payload.string?, .string, fun _ => []⟩

def whole : Form Int := ⟨Payload.int64?, fun n => .number (.int n), fun _ => []⟩

/-- A coordinate that may be left open. -/
def coordinate : Form (Option Coordinate) :=
  ⟨Payload.optional? Coordinate.ofPayload?, Coordinate.toJson, Option.toList⟩

@[simp] theorem text_read : text.read = Payload.string? := rfl

@[simp] theorem text_coordinates (s : String) : text.coordinates s = [] := by
  simp only [text]

@[simp] theorem whole_read : whole.read = Payload.int64? := rfl

@[simp] theorem whole_coordinates (n : Int) : whole.coordinates n = [] := rfl

@[simp] theorem coordinate_read : coordinate.read = Payload.optional? Coordinate.ofPayload? := rfl

theorem text_settled (s : String) : text.Settled s := settled_of_same rfl rfl

theorem text_settles : text.Settles := fun _ s _ => text_settled s

theorem whole_settles : whole.Settles := by
  intro payload n known
  have within : Number.leastInt64 ≤ n ∧ n ≤ Number.greatestInt64 := by
    cases payload with
    | number given =>
      cases given with
      | int given =>
        by_cases within : Number.leastInt64 ≤ given ∧ given ≤ Number.greatestInt64
        · have same : given = n := by simpa [whole, Payload.int64?, within] using known
          exact same ▸ within
        · simp [whole, Payload.int64?, within] at known
      | _ => cases known
    | _ => cases known
  exact settled_of_same (if_pos within) rfl

theorem coordinate_settled (c : Option Coordinate) : coordinate.Settled c := by
  cases c with
  | none => exact settled_of_same rfl rfl
  | some c =>
    cases c with
    | finite x =>
      exact ⟨some (.finite x), rfl, rfl, by simp [coordinate, Decimal.Extended.isFinite]⟩
    | infinite negative => exact ⟨none, rfl, rfl, by simp [coordinate, Decimal.Extended.isFinite]⟩

theorem coordinate_settles : coordinate.Settles := fun _ c _ => coordinate_settled c

/-! ## Values put together of others -/

def list (F : Form α) : Form (List α) :=
  ⟨Payload.list? F.read, fun xs => .array (xs.map F.write), fun xs => xs.flatMap F.coordinates⟩

def optional (F : Form α) : Form (Option α) :=
  ⟨Payload.optional? F.read, Json.ofOptional F.write, fun x => x.toList.flatMap F.coordinates⟩

@[simp] theorem list_read (F : Form α) : F.list.read = Payload.list? F.read := rfl

@[simp] theorem list_coordinates {F : Form α} (none : ∀ x, F.coordinates x = []) (xs : List α) :
    F.list.coordinates xs = [] := List.flatMap_eq_nil_iff.mpr fun x _ => none x

@[simp] theorem optional_read (F : Form α) : F.optional.read = Payload.optional? F.read := rfl

theorem list_settled {F : Form α} {xs : List α} (settled : ∀ x ∈ xs, F.Settled x) :
    F.list.Settled xs := by
  induction xs with
  | nil => exact settled_of_same rfl rfl
  | cons x rest ih =>
    obtain ⟨⟨y, again, same, kept⟩, others⟩ := List.forall_mem_cons.mp settled
    obtain ⟨ys, againRest, sameRest, keptRest⟩ := ih others
    have againRest : (Payload.ofItems (rest.map F.write)).mapM F.read = some ys := againRest
    have sameRest : ys.map F.write = rest.map F.write := Json.array.inj sameRest
    refine ⟨y :: ys, ?_, ?_, ?_⟩
    · change (Payload.ofJson (F.write x) :: Payload.ofItems (rest.map F.write)).mapM F.read = _
      rw [List.mapM_cons, again, againRest]
      rfl
    · change Json.array (F.write y :: ys.map F.write) = Json.array (F.write x :: rest.map F.write)
      rw [same, sameRest]
    · rw [List.cons_eq_cons, kept, keptRest]
      exact List.forall_mem_append.symm

/-- The items of a list that was read were read. -/
theorem exists_read_of_mem_list {F : Form α} {payload : Payload} {xs : List α}
    (known : F.list.read payload = some xs) {x : α} (member : x ∈ xs) :
    ∃ item, F.read item = some x := by
  cases payload with
  | array items => exact exists_read_of_mem_mapM known member
  | _ => cases known

theorem list_settles {F : Form α} (settles : F.Settles) : F.list.Settles := by
  intro payload xs known
  refine list_settled fun x member => ?_
  obtain ⟨item, read⟩ := exists_read_of_mem_list known member
  exact settles item x read

/-- A value that is there is never written as null. -/
theorem optional_settled {F : Form α} (apart : ∀ x, F.write x ≠ .null) {x : Option α}
    (settled : ∀ y ∈ x, F.Settled y) : F.optional.Settled x := by
  cases x with
  | none => exact settled_of_same rfl rfl
  | some x =>
    obtain ⟨y, again, same, kept⟩ := settled x rfl
    refine ⟨some y, ?_, same, ?_⟩
    · change Payload.optional? F.read (.ofJson (F.write x)) = some (some y)
      rw [Payload.optional?_ofJson _ (apart x), again, Option.map_some]
    · simpa [optional] using kept

/-- What a value that may be left out was read from is read as the value itself. -/
theorem settled_of_mem_optional {F : Form α} (settles : F.Settles) {payload : Payload}
    {x : Option α} (known : F.optional.read payload = some x) : ∀ y ∈ x, F.Settled y := by
  intro y found
  cases found
  cases payload with
  | null => cases known
  | _ =>
    obtain ⟨_, read, same⟩ := Option.map_eq_some_iff.mp known
    cases same
    exact settles _ _ read

theorem optional_settles {F : Form α} (apart : ∀ x, F.write x ≠ .null) (settles : F.Settles) :
    F.optional.Settles :=
  fun _ _ known => optional_settled apart (settled_of_mem_optional settles known)

end Form

/-! ## Records -/

/-- The fields of a record are there as they are written, each one that is written at all. -/
def Record.Gives (r : Record) (names : List String) (members : List (String × Json)) : Prop :=
  ∀ name ∈ names, r.get? name = (members.lookup name).map Payload.ofJson

namespace Payload

theorem map_fst_ofMembers (members : List (String × Json)) :
    (ofMembers members).map Prod.fst = members.map Prod.fst := by
  induction members with
  | nil => rfl
  | cons head rest ih => rw [ofMembers, List.map_cons, List.map_cons, ih]

theorem lookup_ofMembers (members : List (String × Json)) (name : String) :
    (ofMembers members).lookup name = (members.lookup name).map ofJson := by
  induction members with
  | nil => rfl
  | cons head rest ih =>
    rw [ofMembers, List.lookup_cons, List.lookup_cons, ih]
    split <;> rfl

/-- A written record is read as what it gives. -/
theorem recordFrom?_ofJson {fields : List String} {members : List (String × Json)}
    (distinct : fields.Nodup) (within : (members.map Prod.fst).Sublist fields) (least : Nat) :
    ∃ r, (ofJson (.object members)).recordFrom? least fields = some r ∧ r.Gives fields members := by
  have known : (ofMembers members).filter (fun member => fields.contains member.1) =
      ofMembers members := by
    apply List.filter_eq_self.mpr
    intro member found
    have name := List.mem_map_of_mem (f := Prod.fst) found
    rw [map_fst_ofMembers] at name
    exact List.contains_iff_mem.mpr (within.subset name)
  have once : Payload.distinct ((ofMembers members).map Prod.fst) = true := by
    rw [distinct_iff_nodup, map_fst_ofMembers]
    exact distinct.sublist within
  refine ⟨⟨ofMembers members⟩, ?_, fun name _ => lookup_ofMembers members name⟩
  simp only [ofJson, recordFrom?, knownMembers?, known, once, if_true]

end Payload

/-- Some fields of a record, with all that is read of them together. Of its names, which are
distinct, those that are written are written in their order. -/
structure Fields (α : Type) where
  names : List String
  read : Record → Option α
  members : α → List (String × Json)
  coordinates : α → List Coordinate
  distinct : names.Nodup
  within : ∀ x, ((members x).map Prod.fst).Sublist names

namespace Fields

/-- The counterpart of `Form.Settled`: other fields do not matter. -/
def Settled (A : Fields α) (x : α) : Prop :=
  ∃ y, (∀ r : Record, r.Gives A.names (A.members x) → A.read r = some y) ∧
    A.members y = A.members x ∧ (y = x ↔ ∀ c ∈ A.coordinates x, c.isFinite = true)

def Settles (A : Fields α) : Prop := ∀ r x, A.read r = some x → A.Settled x

/-- One field; `absent` where it is left out. -/
def one (name : String) (absent : α) (F : Form α) : Fields α where
  names := [name]
  read r := r.field name absent F.read
  members x := [(name, F.write x)]
  coordinates := F.coordinates
  distinct := List.nodup_singleton name
  within _ := .refl _

/-- A field that is left out where there is nothing to write. -/
def skipped (name : String) (F : Form α) : Fields (Option α) where
  names := [name]
  read r := r.optional name F.read
  members := Json.memberOf name F.write
  coordinates x := x.toList.flatMap F.coordinates
  distinct := List.nodup_singleton name
  within x := by
    cases x with
    | none => exact List.nil_sublist _
    | some _ => exact .refl _

def both (A : Fields α) (B : Fields β) (distinct : (A.names ++ B.names).Nodup := by decide) :
    Fields (α × β) where
  names := A.names ++ B.names
  read r := do return (← A.read r, ← B.read r)
  members x := A.members x.1 ++ B.members x.2
  coordinates x := A.coordinates x.1 ++ B.coordinates x.2
  distinct := distinct
  within x := by
    rw [List.map_append]
    exact (A.within x.1).append (B.within x.2)

/-- The same fields, taken as something else. -/
def as (A : Fields α) (e : α ≃ β) : Fields β where
  names := A.names
  read r := (A.read r).map e
  members x := A.members (e.symm x)
  coordinates x := A.coordinates (e.symm x)
  distinct := A.distinct
  within x := A.within (e.symm x)

@[simp] theorem one_read (name : String) (absent : α) (F : Form α) (r : Record) :
    (one name absent F).read r = r.field name absent F.read := rfl

@[simp] theorem skipped_read (name : String) (F : Form α) (r : Record) :
    (skipped name F).read r = r.optional name F.read := rfl

@[simp] theorem both_read (A : Fields α) (B : Fields β) (distinct : (A.names ++ B.names).Nodup)
    (r : Record) : (A.both B distinct).read r =
      (A.read r).bind fun a => (B.read r).bind fun b => some (a, b) := rfl

@[simp] theorem as_read (A : Fields α) (e : α ≃ β) (r : Record) :
    (A.as e).read r = (A.read r).map e := rfl

@[simp] theorem one_coordinates (name : String) (absent : α) (F : Form α) (x : α) :
    (one name absent F).coordinates x = F.coordinates x := rfl

@[simp] theorem both_coordinates (A : Fields α) (B : Fields β)
    (distinct : (A.names ++ B.names).Nodup) (x : α × β) :
    (A.both B distinct).coordinates x = A.coordinates x.1 ++ B.coordinates x.2 := rfl

@[simp] theorem as_coordinates (A : Fields α) (e : α ≃ β) (x : β) :
    (A.as e).coordinates x = A.coordinates (e.symm x) := rfl

theorem one_settled {name : String} {absent : α} {F : Form α} {x : α} (settled : F.Settled x) :
    (one name absent F).Settled x := by
  obtain ⟨y, again, same, kept⟩ := settled
  refine ⟨y, ?_, ?_, kept⟩
  · intro r gives
    have got : r.get? name = some (.ofJson (F.write x)) := by
      simpa [one] using gives name List.mem_cons_self
    simp only [one, Record.field, got, again]
  · simp only [one, same]

theorem one_settles {name : String} {absent : α} {F : Form α} (empty : F.Settled absent)
    (settles : F.Settles) : (one name absent F).Settles := by
  intro r x known
  simp only [one, Record.field] at known
  split at known
  · cases known
    exact one_settled empty
  · exact one_settled (settles _ x known)

theorem text_settles (name : String) : (one name "" .text).Settles :=
  one_settles (Form.text_settled "") Form.text_settles

theorem whole_settles (name : String) : (one name 0 .whole).Settles :=
  one_settles (Form.settled_of_same rfl rfl) Form.whole_settles

theorem coordinate_settles (name : String) : (one name none .coordinate).Settles :=
  one_settles (Form.coordinate_settled none) Form.coordinate_settles

theorem list_settles (name : String) {F : Form α} (settles : F.Settles) :
    (one name [] F.list).Settles :=
  one_settles (Form.settled_of_same rfl rfl) (Form.list_settles settles)

theorem optional_settles (name : String) {F : Form α} (apart : ∀ x, F.write x ≠ .null)
    (settles : F.Settles) : (one name none F.optional).Settles :=
  one_settles (Form.settled_of_same rfl rfl) (Form.optional_settles apart settles)

theorem skipped_settled {name : String} {F : Form α} (apart : ∀ x, F.write x ≠ .null)
    {x : Option α} (settled : ∀ y ∈ x, F.Settled y) : (skipped name F).Settled x := by
  cases x with
  | none =>
    refine ⟨none, ?_, rfl, iff_of_true rfl (List.forall_mem_nil _)⟩
    intro r gives
    have got : r.get? name = none := gives name List.mem_cons_self
    simp only [skipped, Record.optional, Record.field, got]
  | some x =>
    obtain ⟨y, again, same, kept⟩ := Form.optional_settled apart settled
    obtain ⟨z, rfl⟩ : ∃ z, y = some z := by
      cases y with
      | none => exact absurd same.symm (apart x)
      | some z => exact ⟨z, rfl⟩
    refine ⟨some z, ?_, ?_, kept⟩
    · intro r gives
      have got : r.get? name = some (.ofJson (F.write x)) := by
        simpa [skipped, Json.memberOf] using gives name List.mem_cons_self
      simp only [skipped, Record.optional, Record.field, got]
      exact again
    · exact congrArg (fun value => [(name, value)]) same

theorem skipped_settles {name : String} {F : Form α} (apart : ∀ x, F.write x ≠ .null)
    (settles : F.Settles) : (skipped name F).Settles := by
  intro r x known
  simp only [skipped, Record.optional, Record.field] at known
  split at known
  · cases known
    exact skipped_settled apart (by simp)
  · exact skipped_settled apart (Form.settled_of_mem_optional settles known)

theorem lookup_eq_none (A : Fields α) (x : α) {name : String} (other : name ∉ A.names) :
    (A.members x).lookup name = none := by
  apply List.lookup_eq_none_iff.mpr
  intro member found
  have own := (A.within x).subset (List.mem_map_of_mem (f := Prod.fst) found)
  exact bne_iff_ne.mpr fun same => other (same ▸ own)

theorem both_settled {A : Fields α} {B : Fields β} {distinct : (A.names ++ B.names).Nodup}
    {x : α × β} (left : A.Settled x.1) (right : B.Settled x.2) : (A.both B distinct).Settled x := by
  obtain ⟨y, again, same, kept⟩ := left
  obtain ⟨z, again', same', kept'⟩ := right
  have apart := (List.nodup_append.mp distinct).2.2
  refine ⟨(y, z), ?_, ?_, ?_⟩
  · intro r gives
    have gives : ∀ name ∈ A.names ++ B.names, r.get? name =
        (((A.members x.1).lookup name).or ((B.members x.2).lookup name)).map Payload.ofJson :=
      fun name known => (gives name known).trans (by rw [both, List.lookup_append])
    -- Neither side writes under a name of the other.
    have left : r.Gives A.names (A.members x.1) := by
      intro name own
      rw [gives name (List.mem_append_left _ own),
        B.lookup_eq_none x.2 fun other => apart name own name other rfl, Option.or_none]
    have right : r.Gives B.names (B.members x.2) := by
      intro name own
      rw [gives name (List.mem_append_right _ own),
        A.lookup_eq_none x.1 fun other => apart name other name own rfl, Option.none_or]
    simp only [both, again r left, again' r right]
    rfl
  · simp only [both, same, same']
  · rw [Prod.ext_iff, kept, kept']
    exact List.forall_mem_append.symm

theorem read_of_both {A : Fields α} {B : Fields β} {distinct : (A.names ++ B.names).Nodup}
    {r : Record} {x : α × β} (known : (A.both B distinct).read r = some x) :
    A.read r = some x.1 ∧ B.read r = some x.2 := by
  obtain ⟨a, first, known⟩ := Option.bind_eq_some_iff.mp known
  obtain ⟨b, second, known⟩ := Option.bind_eq_some_iff.mp known
  cases known
  exact ⟨first, second⟩

theorem both_settles {A : Fields α} {B : Fields β} {distinct : (A.names ++ B.names).Nodup}
    (left : A.Settles) (right : B.Settles) : (A.both B distinct).Settles := by
  intro r x known
  obtain ⟨first, second⟩ := read_of_both known
  exact both_settled (left r x.1 first) (right r x.2 second)

theorem as_settled {A : Fields α} {e : α ≃ β} {x : β} (settled : A.Settled (e.symm x)) :
    (A.as e).Settled x := by
  obtain ⟨y, again, same, kept⟩ := settled
  refine ⟨e y, ?_, ?_, ?_⟩
  · intro r gives
    simp only [as, again r gives, Option.map_some]
  · simp only [as, e.symm_apply_apply, same]
  · rw [← e.eq_symm_apply]
    exact kept

theorem read_of_as {A : Fields α} {e : α ≃ β} {r : Record} {x : β}
    (known : (A.as e).read r = some x) : A.read r = some (e.symm x) := by
  obtain ⟨a, read, rfl⟩ := Option.map_eq_some_iff.mp known
  rw [e.symm_apply_apply]
  exact read

theorem as_settles {A : Fields α} {e : α ≃ β} (settles : A.Settles) : (A.as e).Settles :=
  fun r x known => as_settled (settles r (e.symm x) (read_of_as known))

end Fields

namespace Form

/-- Fields as a record of their own, of which an array gives at least the first `least` ones. -/
def record (A : Fields α) (least : Nat) : Form α where
  read payload := payload.recordFrom? least A.names >>= A.read
  write x := .object (A.members x)
  coordinates := A.coordinates

theorem eq_record {F : Form α} {A : Fields α} {least : Nat} {readParts : Record → Option α}
    (read : ∀ payload, F.read payload = payload.recordFrom? least A.names >>= readParts)
    (parts : ∀ r, A.read r = readParts r) (write : ∀ x, F.write x = .object (A.members x))
    (coordinates : ∀ x, F.coordinates x = A.coordinates x) : F = record A least := by
  obtain rfl : A.read = readParts := funext parts
  obtain ⟨_, _, _⟩ := F
  obtain rfl := funext read
  obtain rfl := funext write
  obtain rfl := funext coordinates
  rfl

theorem record_settled {A : Fields α} {least : Nat} {x : α} (settled : A.Settled x) :
    (record A least).Settled x := by
  obtain ⟨y, again, same, kept⟩ := settled
  obtain ⟨r, read, gives⟩ := Payload.recordFrom?_ofJson A.distinct (A.within x) least
  refine ⟨y, ?_, ?_, kept⟩
  · simp only [record, read]
    exact again r gives
  · simp only [record, same]

theorem record_settles {A : Fields α} {least : Nat} (settles : A.Settles) :
    (record A least).Settles := by
  intro payload x known
  obtain ⟨r, _, read⟩ := Option.bind_eq_some_iff.mp known
  exact record_settled (settles r x read)

end Form

end FleetSearch
