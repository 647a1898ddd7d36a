import FleetSearch.Operand
import Mathlib.Data.List.Forall2

/-! # Operands as they are read

A value is kept as an operand without loss. It can be compared with if it is a string, a number or a
boolean, or an array of values of one of these kinds, and is blamed otherwise. -/
namespace FleetSearch

/-! ## Lists that are read item by item -/

theorem mapM_eq_some_iff {α β : Type} {read : α → Option β} {xs : List α} {ys : List β} :
    xs.mapM read = some ys ↔ List.Forall₂ (fun x y => read x = some y) xs ys := by
  induction xs generalizing ys with
  | nil =>
    rw [List.mapM_nil, List.forall₂_nil_left_iff]
    exact ⟨fun same => (Option.some.inj same).symm, fun same => congrArg some same.symm⟩
  | cons x rest ih =>
    rw [List.mapM_cons, List.forall₂_cons_left_iff]
    constructor
    · intro known
      obtain ⟨y, first, known⟩ := Option.bind_eq_some_iff.mp known
      obtain ⟨tail, others, known⟩ := Option.bind_eq_some_iff.mp known
      exact ⟨y, tail, first, ih.mp others, (Option.some.inj known).symm⟩
    · rintro ⟨y, tail, first, others, rfl⟩
      rw [first, ih.mpr others]
      rfl

theorem exists_mapM_eq_some_iff {α β : Type} {read : α → Option β} {xs : List α} :
    (∃ ys, xs.mapM read = some ys) ↔ ∀ x ∈ xs, ∃ y, read x = some y := by
  constructor
  · rintro ⟨ys, known⟩
    induction mapM_eq_some_iff.mp known with
    | nil => exact List.forall_mem_nil _
    | cons first others ih =>
      exact List.forall_mem_cons.mpr ⟨⟨_, first⟩, ih (mapM_eq_some_iff.mpr others)⟩
  · intro readable
    induction xs with
    | nil => exact ⟨[], rfl⟩
    | cons x rest ih =>
      obtain ⟨⟨y, first⟩, others⟩ := List.forall_mem_cons.mp readable
      obtain ⟨tail, known⟩ := ih others
      exact ⟨y :: tail, mapM_eq_some_iff.mpr (.cons first (mapM_eq_some_iff.mp known))⟩

theorem exists_read_of_mem_mapM {α β : Type} {read : α → Option β} {xs : List α} {ys : List β}
    (known : xs.mapM read = some ys) {y : β} (member : y ∈ ys) : ∃ x, read x = some y := by
  induction mapM_eq_some_iff.mp known with
  | nil => cases member
  | cons first others ih =>
    obtain rfl | member := List.mem_cons.mp member
    · exact ⟨_, first⟩
    · exact ih (mapM_eq_some_iff.mpr others) member

/-- What was read item by item is written as it was. -/
theorem map_write_of_mapM {α β : Type} {read : α → Option β} {write : β → α}
    (back : ∀ x y, read x = some y → x = write y) {xs : List α} {ys : List β}
    (known : xs.mapM read = some ys) : ys.map write = xs := by
  have same : List.Forall₂ (· = ·) xs (ys.map write) :=
    List.forall₂_map_right_iff.mpr ((mapM_eq_some_iff.mp known).imp back)
  rw [List.forall₂_eq_eq_eq] at same
  exact same.symm

namespace Json

theorem string?_eq_some_iff (value : Json) (s : String) :
    value.string? = some s ↔ value = .string s := by
  cases value <;> simp [string?]

theorem number?_eq_some_iff (value : Json) (n : Number) :
    value.number? = some n ↔ value = .number n := by
  cases value <;> simp [number?]

theorem bool?_eq_some_iff (value : Json) (b : Bool) : value.bool? = some b ↔ value = .bool b := by
  cases value <;> simp [bool?]

/-! ## Values to compare with -/

/-- The kind of a value that is not put together of others. -/
def kind? : Json → Option ValueKind
  | .string _ => some .string
  | .number _ => some .number
  | .bool _ => some .boolean
  | _ => none

/-- A value of a kind, or an array of such values. An empty array is one of strings. -/
inductive OfKind : Json → ValueKind → Bool → Prop where
  | scalar {value : Json} {kind : ValueKind} : value.kind? = some kind → OfKind value kind false
  | empty : OfKind (.array []) .string true
  | array {items : List Json} {kind : ValueKind} :
    items ≠ [] → (∀ item ∈ items, item.kind? = some kind) → OfKind (.array items) kind true

theorem kind?_eq_string_iff (value : Json) :
    value.kind? = some .string ↔ ∃ s, value.string? = some s := by
  cases value <;> simp [kind?, string?]

theorem kind?_eq_number_iff (value : Json) :
    value.kind? = some .number ↔ ∃ n, value.number? = some n := by
  cases value <;> simp [kind?, number?]

theorem kind?_eq_boolean_iff (value : Json) :
    value.kind? = some .boolean ↔ ∃ b, value.bool? = some b := by
  cases value <;> simp [kind?, bool?]

/-- Items among which there are different kinds, or an item of no kind. -/
def Mixed (items : List Json) : Prop := ∀ kind, ∃ item ∈ items, item.kind? ≠ some kind

theorem mixed_of_unread {β : Type} {read : Json → Option β} {kind : ValueKind}
    (reads : ∀ value, value.kind? = some kind ↔ ∃ x, read value = some x) {first : Json}
    {rest : List Json} (known : first.kind? = some kind) (unread : (first :: rest).mapM read = none) :
    Mixed (first :: rest) := by
  intro kind'
  by_contra alike
  push Not at alike
  -- All items are of the kind of the first, so they would have been read.
  have same : some kind' = some kind := (alike first List.mem_cons_self).symm.trans known
  have readable : ∀ item ∈ first :: rest, ∃ x, read item = some x := by
    intro item member
    exact (reads item).mp ((alike item member).trans same)
  obtain ⟨items, whole⟩ := exists_mapM_eq_some_iff.mpr readable
  rw [unread] at whole
  cases whole

end Json

namespace Operand

/-- An array is read by the kind of its first item. -/
theorem ofItems_cons (first : Json) (rest : List Json) :
    ofItems (first :: rest) = ((match first.kind? with
      | some .string => ((first :: rest).mapM Json.string?).map strings
      | some .number => ((first :: rest).mapM Json.number?).map numbers
      | some .boolean => ((first :: rest).mapM Json.bool?).map booleans
      | none => none).getD (unusable (.array (first :: rest)))) := by
  cases first <;> rfl

/-- What an array can be read as. -/
inductive ItemsRead : List Json → Operand → Prop where
  | strings (texts : List String) : ItemsRead (texts.map .string) (.strings texts)
  | numbers {ns : List Number} : ns ≠ [] → ItemsRead (ns.map .number) (.numbers ns)
  | booleans {bs : List Bool} : bs ≠ [] → ItemsRead (bs.map .bool) (.booleans bs)
  | mixed {items : List Json} : Json.Mixed items → ItemsRead items (.unusable (.array items))

theorem itemsRead (items : List Json) : ItemsRead items (ofItems items) := by
  cases items with
  | nil => exact .strings []
  | cons first rest =>
    rw [ofItems_cons]
    cases known : first.kind? with
    | none =>
      refine .mixed fun kind => ⟨first, List.mem_cons_self, ?_⟩
      simp [known]
    | some kind =>
      cases kind with
      | string =>
        cases read : (first :: rest).mapM Json.string? with
        | none => exact .mixed (Json.mixed_of_unread Json.kind?_eq_string_iff known read)
        | some texts =>
          rw [← map_write_of_mapM (fun v s => (v.string?_eq_some_iff s).mp) read]
          exact .strings texts
      | number =>
        cases read : (first :: rest).mapM Json.number? with
        | none => exact .mixed (Json.mixed_of_unread Json.kind?_eq_number_iff known read)
        | some ns =>
          have items := map_write_of_mapM (fun v n => (v.number?_eq_some_iff n).mp) read
          rw [← items]
          refine .numbers ?_
          rintro rfl
          cases items
      | boolean =>
        cases read : (first :: rest).mapM Json.bool? with
        | none => exact .mixed (Json.mixed_of_unread Json.kind?_eq_boolean_iff known read)
        | some bs =>
          have items := map_write_of_mapM (fun v b => (v.bool?_eq_some_iff b).mp) read
          rw [← items]
          refine .booleans ?_
          rintro rfl
          cases items

/-- An operand is written as the value that it was read from. -/
theorem toJson_ofJson (value : Json) : (ofJson value).toJson = value := by
  cases value with
  | array items =>
    have read := itemsRead items
    rw [ofJson]
    generalize ofItems items = operand at read ⊢
    cases read <;> rfl
  | _ => rfl

end Operand

namespace Json.OfKind

theorem map {α : Type} {write : α → Json} {kind : ValueKind}
    (written : ∀ x, (write x).kind? = some kind) {xs : List α} (present : xs ≠ []) :
    (Json.array (xs.map write)).OfKind kind true := by
  refine .array (by simpa using present) ?_
  intro item member
  obtain ⟨x, _, rfl⟩ := List.mem_map.mp member
  exact written x

/-- A value is of one kind only. -/
theorem unique {value : Json} {kind kind' : ValueKind} {isArray isArray' : Bool}
    (known : value.OfKind kind isArray) (known' : value.OfKind kind' isArray') :
    kind = kind' ∧ isArray = isArray' := by
  cases known with
  | scalar single =>
    cases known' with
    | scalar single' => exact ⟨Option.some.inj (single.symm.trans single'), rfl⟩
    | empty => cases single
    | array _ _ => cases single
  | empty =>
    cases known' with
    | scalar single' => cases single'
    | empty => exact ⟨rfl, rfl⟩
    | array present _ => exact absurd rfl present
  | array present items =>
    cases known' with
    | scalar single' => cases single'
    | empty => exact absurd rfl present
    | array _ items' =>
      obtain ⟨item, member⟩ := List.exists_mem_of_ne_nil _ present
      have same := (items item member).symm.trans (items' item member)
      exact ⟨Option.some.inj same, rfl⟩

theorem not_mixed {items : List Json} {kind : ValueKind} {isArray : Bool}
    (known : (Json.array items).OfKind kind isArray) (mixed : Mixed items) : False := by
  obtain ⟨item, member, other⟩ := mixed kind
  cases known with
  | scalar single => cases single
  | empty => cases member
  | array _ alike => exact other (alike item member)

end Json.OfKind

namespace Operand

/-- An operand has the kind of the value that it was read from. -/
theorem ofKind_of_kind {value : Json} {kind : ValueKind} {isArray : Bool}
    (known : (ofJson value).kind = .ok (kind, isArray)) : value.OfKind kind isArray := by
  cases value with
  | null => cases known
  | object members => cases known
  | string s => cases known; exact .scalar rfl
  | number n => cases known; exact .scalar rfl
  | bool b => cases known; exact .scalar rfl
  | array items =>
    have read := itemsRead items
    rw [ofJson] at known
    generalize ofItems items = operand at read known
    cases read with
    | strings texts =>
      cases known
      cases texts with
      | nil => exact .empty
      | cons s rest => exact .map (fun _ => rfl) (List.cons_ne_nil s rest)
    | numbers present => cases known; exact .map (fun _ => rfl) present
    | booleans present => cases known; exact .map (fun _ => rfl) present
    | mixed _ => cases known

/-- A value that can be compared with is never blamed. -/
theorem exists_kind_of_ofKind {value : Json} {kind : ValueKind} {isArray : Bool}
    (known : value.OfKind kind isArray) : ∃ form, (ofJson value).kind = .ok form := by
  cases value with
  | null => cases known with | scalar single => cases single
  | object members => cases known with | scalar single => cases single
  | string s => exact ⟨_, rfl⟩
  | number n => exact ⟨_, rfl⟩
  | bool b => exact ⟨_, rfl⟩
  | array items =>
    have read := itemsRead items
    rw [ofJson]
    generalize ofItems items = operand at read ⊢
    cases read with
    | mixed different => exact (known.not_mixed different).elim
    | _ => exact ⟨_, rfl⟩

theorem kind_ofJson_iff (value : Json) (kind : ValueKind) (isArray : Bool) :
    (ofJson value).kind = .ok (kind, isArray) ↔ value.OfKind kind isArray := by
  constructor
  · exact ofKind_of_kind
  · intro known
    obtain ⟨⟨kind', isArray'⟩, read⟩ := exists_kind_of_ofKind known
    obtain ⟨rfl, rfl⟩ := known.unique (ofKind_of_kind read)
    exact read

/-- Any other value is blamed as unknown. -/
theorem kind_eq_error {operand : Operand} {e : FilterError} (failed : operand.kind = .error e) :
    ∃ value type, e = .unknownOperand value type := by
  cases operand with
  | unusable value => cases failed; exact ⟨_, _, rfl⟩
  | _ => cases failed

end Operand

end FleetSearch
