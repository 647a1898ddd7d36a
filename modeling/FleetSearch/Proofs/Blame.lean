import FleetSearch.Proofs.Operands

/-! # Blame

Every value is an operand of one form, and nothing of it is lost. A value of no form is blamed, and
of an array the item that ends its first run of values of one kind: the items before it are all of
one kind, and with it they are not. -/
namespace FleetSearch

namespace Json

/-- Single values that are all of one kind. -/
def Uniform (items : List Json) : Prop := ∃ kind, ∀ item ∈ items, item.kind? = some kind

/-- The items before an index are uniform, and with the item there they are not. -/
def BreaksAt (items : List Json) (i : Nat) : Prop :=
  Uniform (items.take i) ∧ ¬ Uniform (items.take (i + 1))

theorem Uniform.initial {items more : List Json} (uniform : Uniform more)
    (start : items <+: more) : Uniform items := by
  obtain ⟨kind, alike⟩ := uniform
  exact ⟨kind, fun item member => alike item (start.subset member)⟩

/-- A run of uniform items breaks once. -/
theorem BreaksAt.unique {items : List Json} {i j : Nat} (breaks : BreaksAt items i)
    (breaks' : BreaksAt items j) : i = j := by
  rcases Nat.lt_trichotomy i j with before | same | after
  · have start : items.take (i + 1) <+: items.take j := List.take_prefix_take_left before
    exact absurd (breaks'.1.initial start) breaks.2
  · exact same
  · have start : items.take (j + 1) <+: items.take i := List.take_prefix_take_left after
    exact absurd (breaks.1.initial start) breaks'.2

theorem isScalar_iff (value : Json) : value.isScalar = true ↔ ∃ kind, value.kind? = some kind := by
  cases value <;> simp [isScalar, kind?]

/-- Single values are of one type exactly if they are of one kind. -/
theorem typeName_eq_iff {value other : Json} {kind : ValueKind} (single : value.isScalar = true)
    (known : other.kind? = some kind) : value.typeName = other.typeName ↔ value.kind? = some kind := by
  cases value <;> cases other <;> cases known <;> simp_all [isScalar, kind?, typeName]

/-- An item that is of no kind or of another one than the first. -/
def departs (first item : Json) : Bool := !item.isScalar || item.typeName != first.typeName

theorem departs_eq_false_iff {first : Json} {kind : ValueKind} (known : first.kind? = some kind)
    (item : Json) : departs first item = false ↔ item.kind? = some kind := by
  rw [departs, Bool.or_eq_false_iff, Bool.not_eq_false', bne_eq_false_iff_eq]
  constructor
  · rintro ⟨single, same⟩
    exact (typeName_eq_iff single known).mp same
  · intro same
    have single := (isScalar_iff item).mpr ⟨kind, same⟩
    exact ⟨single, (typeName_eq_iff single known).mpr same⟩

theorem uniform_of_none_departs {first : Json} {rest : List Json}
    (none_departs : ∀ item ∈ first :: rest, departs first item = false) :
    Uniform (first :: rest) := by
  have single := (Bool.or_eq_false_iff.mp (none_departs first List.mem_cons_self)).1
  obtain ⟨kind, known⟩ := (isScalar_iff first).mp (by simpa using single)
  exact ⟨kind, fun item member => (departs_eq_false_iff known item).mp (none_departs item member)⟩

theorem not_uniform_of_departs {items : List Json} {first item : Json} (first_mem : first ∈ items)
    (item_mem : item ∈ items) (different : departs first item = true) : ¬ Uniform items := by
  rintro ⟨kind, alike⟩
  have same := (departs_eq_false_iff (alike first first_mem) item).mpr (alike item item_mem)
  rw [different] at same
  cases same

/-- The first item that departs from the first one is where the run of uniform items breaks. -/
theorem exists_breaksAt {first : Json} {rest : List Json} (mixed : ¬ Uniform (first :: rest)) :
    ∃ i item, (first :: rest)[i]? = some item ∧ BreaksAt (first :: rest) i ∧
      (first :: rest).find? (departs first) = some item := by
  cases found : (first :: rest).find? (departs first) with
  | none =>
    have none_departs := List.find?_eq_none.mp found
    exact absurd (uniform_of_none_departs fun item member => by simpa using none_departs item member)
      mixed
  | some item =>
    obtain ⟨different, before, after, split, none_departs⟩ := List.find?_eq_some_iff_append.mp found
    have upTo : (first :: rest).take before.length = before := by rw [split, List.take_left]
    have through : (first :: rest).take (before.length + 1) = before ++ [item] := by
      rw [split, List.append_cons]
      exact List.take_left' (by simp)
    refine ⟨before.length, item, by simp [split], ⟨?_, ?_⟩, rfl⟩
    · rw [upTo]
      cases before with
      | nil => exact ⟨.string, List.forall_mem_nil _⟩
      | cons head others =>
        obtain ⟨rfl, _⟩ := List.cons.inj split
        exact uniform_of_none_departs fun item member => by simpa using none_departs item member
    · rw [through]
      have first_mem : first ∈ before ++ [item] := by
        cases before with
        | nil => simp [(List.cons.inj split).1]
        | cons head others => simp [(List.cons.inj split).1]
      exact not_uniform_of_departs first_mem (by simp) different

end Json

/-! ## The forms of operands -/

namespace Operand

/-- What a value is kept as: a single value as itself, an array of values of one kind as one of them,
an empty one as one of strings, and every other value as unusable. -/
structure Classified (value : Json) (operand : Operand) : Prop where
  string : ∀ s, operand = .string s ↔ value = .string s
  number : ∀ n, operand = .number n ↔ value = .number n
  boolean : ∀ b, operand = .boolean b ↔ value = .bool b
  strings : ∀ texts, operand = .strings texts ↔ value = .array (texts.map .string)
  numbers : ∀ ns, operand = .numbers ns ↔ ns ≠ [] ∧ value = .array (ns.map .number)
  booleans : ∀ bs, operand = .booleans bs ↔ bs ≠ [] ∧ value = .array (bs.map .bool)
  unusable : ∀ kept, operand = .unusable kept ↔
    kept = value ∧ ∀ kind isArray, ¬ value.OfKind kind isArray

/-- Operands of one form that are written alike are the same. -/
theorem eq_of_kind_of_toJson {operand other : Operand} {form : ValueKind × Bool}
    (known : operand.kind = .ok form) (known' : other.kind = .ok form)
    (same : operand.toJson = other.toJson) : operand = other := by
  have texts_inj : Function.Injective (List.map Json.string) :=
    List.map_injective_iff.mpr fun _ _ => Json.string.inj
  have numbers_inj : Function.Injective (List.map Json.number) :=
    List.map_injective_iff.mpr fun _ _ => Json.number.inj
  have booleans_inj : Function.Injective (List.map Json.bool) :=
    List.map_injective_iff.mpr fun _ _ => Json.bool.inj
  cases operand with
  | string s =>
    cases known
    cases other <;> cases known'
    exact congrArg Operand.string (Json.string.inj same)
  | number n =>
    cases known
    cases other <;> cases known'
    exact congrArg Operand.number (Json.number.inj same)
  | boolean b =>
    cases known
    cases other <;> cases known'
    exact congrArg Operand.boolean (Json.bool.inj same)
  | strings texts =>
    cases known
    cases other <;> cases known'
    exact congrArg Operand.strings (texts_inj (Json.array.inj same))
  | numbers ns =>
    cases known
    cases other <;> cases known'
    exact congrArg Operand.numbers (numbers_inj (Json.array.inj same))
  | booleans bs =>
    cases known
    cases other <;> cases known'
    exact congrArg Operand.booleans (booleans_inj (Json.array.inj same))
  | unusable value => cases known

/-- A value is kept as an operand exactly if it is what the operand is written as, and of its form. -/
theorem ofJson_eq_iff {operand : Operand} {kind : ValueKind} {isArray : Bool}
    (known : operand.kind = .ok (kind, isArray)) (value : Json) :
    ofJson value = operand ↔ value = operand.toJson ∧ value.OfKind kind isArray := by
  constructor
  · rintro rfl
    exact ⟨(toJson_ofJson value).symm, ofKind_of_kind known⟩
  · rintro ⟨written, ofKind⟩
    have read := (kind_ofJson_iff value kind isArray).mpr ofKind
    exact eq_of_kind_of_toJson read known ((toJson_ofJson value).trans written)

theorem kind_eq_error_iff (operand : Operand) :
    (∃ e, operand.kind = .error e) ↔ ∃ kept, operand = .unusable kept := by
  constructor
  · rintro ⟨e, failed⟩
    cases operand with
    | unusable kept => exact ⟨kept, rfl⟩
    | _ => cases failed
  · rintro ⟨kept, rfl⟩
    exact ⟨_, rfl⟩

/-- A value is unusable exactly if it is of no kind, and is kept as it is. -/
theorem ofJson_eq_unusable_iff (value kept : Json) :
    ofJson value = .unusable kept ↔ kept = value ∧ ∀ kind isArray, ¬ value.OfKind kind isArray := by
  constructor
  · intro unusable
    have written := toJson_ofJson value
    rw [unusable] at written
    refine ⟨written, ?_⟩
    intro kind isArray ofKind
    have read := (kind_ofJson_iff value kind isArray).mpr ofKind
    rw [unusable] at read
    cases read
  · rintro ⟨rfl, none⟩
    cases known : (ofJson kept).kind with
    | ok form => exact absurd (ofKind_of_kind known) (none form.1 form.2)
    | error e =>
      obtain ⟨kept', unusable⟩ := (kind_eq_error_iff _).mp ⟨e, known⟩
      have written := toJson_ofJson kept
      rw [unusable] at written ⊢
      exact congrArg Operand.unusable written

/-- An operand of a form is what is read from it as it is written, if that has the form. -/
theorem ofJson_eq_iff_written {operand : Operand} {kind : ValueKind} {isArray : Bool}
    (known : operand.kind = .ok (kind, isArray)) (ofKind : operand.toJson.OfKind kind isArray)
    (value : Json) : ofJson value = operand ↔ value = operand.toJson := by
  rw [ofJson_eq_iff known]
  constructor
  · exact And.left
  · rintro rfl
    exact ⟨rfl, ofKind⟩

/-- An array of items of a kind other than strings is not empty. -/
theorem ofKind_map_iff {α : Type} {write : α → Json} {kind : ValueKind}
    (written : ∀ x, (write x).kind? = some kind) (other : kind ≠ .string) (xs : List α) :
    (Json.array (xs.map write)).OfKind kind true ↔ xs ≠ [] := by
  constructor
  · rintro ofKind rfl
    exact other (ofKind.unique .empty).1
  · exact .map written

theorem ofKind_strings (texts : List String) :
    (Json.array (texts.map .string)).OfKind .string true := by
  cases texts with
  | nil => exact .empty
  | cons s rest => exact .map (fun _ => rfl) (List.cons_ne_nil s rest)

theorem classified (value : Json) : Classified value (ofJson value) where
  string s := by
    have known : (Operand.string s).kind = .ok (.string, false) := rfl
    exact ofJson_eq_iff_written known (.scalar rfl) value
  number n := by
    have known : (Operand.number n).kind = .ok (.number, false) := rfl
    exact ofJson_eq_iff_written known (.scalar rfl) value
  boolean b := by
    have known : (Operand.boolean b).kind = .ok (.boolean, false) := rfl
    exact ofJson_eq_iff_written known (.scalar rfl) value
  strings texts := by
    have known : (Operand.strings texts).kind = .ok (.string, true) := rfl
    exact ofJson_eq_iff_written known (ofKind_strings texts) value
  numbers ns := by
    have known : (Operand.numbers ns).kind = .ok (.number, true) := rfl
    have items : (Json.array (ns.map .number)).OfKind .number true ↔ ns ≠ [] :=
      ofKind_map_iff (fun _ => rfl) (by decide) ns
    rw [ofJson_eq_iff known, and_comm, ← items]
    exact and_congr_left fun written => by rw [written]; rfl
  booleans bs := by
    have known : (Operand.booleans bs).kind = .ok (.boolean, true) := rfl
    have items : (Json.array (bs.map .bool)).OfKind .boolean true ↔ bs ≠ [] :=
      ofKind_map_iff (fun _ => rfl) (by decide) bs
    rw [ofJson_eq_iff known, and_comm, ← items]
    exact and_congr_left fun written => by rw [written]; rfl
  unusable kept := ofJson_eq_unusable_iff value kept

/-! ## The item that is blamed -/

theorem not_uniform_of_unusable {items : List Json} {kept : Json}
    (unusable : ofJson (.array items) = .unusable kept) :
    items ≠ [] ∧ ¬ Json.Uniform items := by
  obtain ⟨_, none⟩ := (ofJson_eq_unusable_iff _ kept).mp unusable
  have present : items ≠ [] := by
    rintro rfl
    exact none .string true .empty
  refine ⟨present, ?_⟩
  rintro ⟨kind, alike⟩
  exact none kind true (.array present alike)

/-- The error names the item at which an array breaks. -/
theorem exists_blamed {items : List Json} {kept : Json}
    (unusable : ofJson (.array items) = .unusable kept) :
    ∃ first i item, items.head? = some first ∧ items[i]? = some item ∧ Json.BreaksAt items i ∧
      items.find? (Json.departs first) = some item ∧
      (ofJson (.array items)).kind = .error (blame item) := by
  obtain ⟨present, mixed⟩ := not_uniform_of_unusable unusable
  obtain ⟨rfl, _⟩ := (ofJson_eq_unusable_iff _ kept).mp unusable
  cases items with
  | nil => exact absurd rfl present
  | cons first rest =>
    obtain ⟨i, item, placed, breaks, found⟩ := Json.exists_breaksAt mixed
    have chosen : offending (.array (first :: rest)) = item := by
      change ((first :: rest).find? (Json.departs first)).getD first = item
      rw [found, Option.getD_some]
    refine ⟨first, i, item, rfl, placed, breaks, found, ?_⟩
    rw [unusable, kind, chosen]

/-- A value is kept without loss, as an operand of the one form that it has, and is of the same form
when it is read again. Its kind is told unless it is unusable. Of an unusable array the error names
the item at the one index where it breaks: there is always an item that departs from the first, so
the first one is never blamed for want of another. -/
theorem operands_classified (value : Json) :
    (ofJson value).toJson = value ∧ ofJson (ofJson value).toJson = ofJson value ∧
    Classified value (ofJson value) ∧
    ((∃ e, (ofJson value).kind = .error e) ↔ ∃ kept, ofJson value = .unusable kept) ∧
    ∀ items, value = .array items → (∃ kept, ofJson value = .unusable kept) →
      ∃ first i item, items.head? = some first ∧ items[i]? = some item ∧
        (∀ j, Json.BreaksAt items j ↔ j = i) ∧
        items.find? (fun other => !other.isScalar || other.typeName != first.typeName) = some item ∧
        (ofJson value).kind = .error (.unknownOperand item.quoted item.typeName) := by
  have whole := toJson_ofJson value
  refine ⟨whole, congrArg ofJson whole, classified value, kind_eq_error_iff _, ?_⟩
  rintro items rfl ⟨kept, unusable⟩
  obtain ⟨first, i, item, head, placed, breaks, found, blamed⟩ := exists_blamed unusable
  refine ⟨first, i, item, head, placed, ?_, found, blamed⟩
  intro j
  constructor
  · intro breaks'
    exact breaks'.unique breaks
  · rintro rfl
    exact breaks

/-- Two strings, a number and nothing: the number is blamed. -/
theorem operands_classified_medley :
    let items : List Json := [.string "a", .string "b", .number (.int 3), .null]
    (∃ kept, ofJson (.array items) = .unusable kept) ∧ (∀ j, Json.BreaksAt items j ↔ j = 2) ∧
      (ofJson (.array items)).kind = .error (.unknownOperand "3" "number") := by
  intro items
  have unusable : ∃ kept, ofJson (.array items) = .unusable kept := ⟨_, rfl⟩
  obtain ⟨first, i, item, head, placed, breaks, found, blamed⟩ :=
    (operands_classified (.array items)).2.2.2.2 items rfl unusable
  cases head
  cases found
  have uniform : Json.Uniform (items.take 2) := ⟨.string, by simp [items, Json.kind?]⟩
  have mixed : ¬ Json.Uniform (items.take 3) := by
    rintro ⟨kind, alike⟩
    have text := alike (.string "a") (by simp [items])
    have number := alike (.number (.int 3)) (by simp [items])
    rw [← text] at number
    cases number
  obtain rfl := (breaks 2).mp ⟨uniform, mixed⟩
  exact ⟨unusable, breaks, blamed⟩

end Operand

end FleetSearch
