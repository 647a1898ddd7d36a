import FleetSearch.Proofs.Document
import FleetSearch.Proofs.Gathering
import FleetSearch.Proofs.Values
import Mathlib.Data.List.Nodup

/-! # Violations by path

A message stands at the end of a path of fields. Violations have each field once, in order, and so
have their parts, whatever they are gathered from; so following a path finds a message exactly if it
is listed under this path, and it is listed once. -/
namespace FleetSearch

/-! ## What is listed -/

mutual

/-- All messages, each with the path that leads to it. -/
def Violation.messages : Violation → List (List String × String)
  | .message text => [([], text)]
  | .nested fields => Violation.fieldsMessages fields

def Violation.fieldsMessages : List (String × Violation) → List (List String × String)
  | [] => []
  | (field, violation) :: rest =>
    violation.messages.map (fun m => (field :: m.1, m.2)) ++ Violation.fieldsMessages rest

end

namespace Violations

def messages (violations : Violations) : List (List String × String) :=
  Violation.fieldsMessages violations

/-- Fields stand in the order of their names, each once, here and in all parts. -/
inductive Orderly : Violations → Prop where
  | mk {violations : Violations} : Table.Ordered violations →
    (∀ field inner, (field, Violation.nested inner) ∈ violations → Orderly inner) →
    Orderly violations

theorem Orderly.ordered {violations : Violations} (orderly : violations.Orderly) :
    Table.Ordered violations := by
  cases orderly with
  | mk ordered _ => exact ordered

theorem Orderly.inner {violations inner : Violations} (orderly : violations.Orderly)
    {field : String} (member : (field, Violation.nested inner) ∈ violations) : inner.Orderly := by
  cases orderly with
  | mk _ parts => exact parts field inner member

theorem Orderly.get?_eq_some_iff {violations : Violations} (orderly : violations.Orderly)
    (field : String) (violation : Violation) :
    violations.get? field = some violation ↔ (field, violation) ∈ violations :=
  lookup_eq_some_iff_mem orderly.ordered.nodup field violation

theorem mem_fieldsMessages_iff (violations : Violations) (field text : String)
    (path : List String) : (field :: path, text) ∈ Violation.fieldsMessages violations ↔
      ∃ violation, (field, violation) ∈ violations ∧ (path, text) ∈ violation.messages := by
  induction violations with
  | nil => simp [Violation.fieldsMessages]
  | cons head rest ih =>
    obtain ⟨other, violation⟩ := head
    rw [Violation.fieldsMessages, List.mem_append, ih, List.mem_map]
    constructor
    · rintro (⟨⟨path', text'⟩, member, same⟩ | ⟨violation', member, listed⟩)
      · cases same
        exact ⟨violation, List.mem_cons_self, member⟩
      · exact ⟨violation', List.mem_cons_of_mem _ member, listed⟩
    · rintro ⟨violation', member, listed⟩
      obtain same | member := List.mem_cons.mp member
      · cases same
        exact .inl ⟨_, listed, rfl⟩
      · exact .inr ⟨violation', member, listed⟩

theorem nil_not_mem_fieldsMessages (violations : Violations) (text : String) :
    ([], text) ∉ Violation.fieldsMessages violations := by
  induction violations with
  | nil => exact List.not_mem_nil
  | cons head rest ih => simp [Violation.fieldsMessages, ih]

/-! ## Following a path -/

theorem at?_nil_ne_message (violations : Violations) (text : String) :
    violations.at? [] ≠ some (.message text) := nofun

theorem at?_cons_of_message {violations : Violations} {field text : String}
    (told : violations.get? field = some (.message text)) (path : List String) :
    violations.at? (field :: path) = if path = [] then some (.message text) else none := by
  cases path <;> simp [at?, told]

theorem at?_cons_of_nested {violations inner : Violations} {field : String}
    (told : violations.get? field = some (.nested inner)) (path : List String) :
    violations.at? (field :: path) = inner.at? path := by
  simp [at?, told]

theorem at?_cons_of_none {violations : Violations} {field : String}
    (told : violations.get? field = none) (path : List String) :
    violations.at? (field :: path) = none := by
  simp [at?, told]

/-- A path ends at a message of its field, or goes on in the part under its field. -/
theorem at?_cons_eq_message_iff (violations : Violations) (field text : String)
    (path : List String) : violations.at? (field :: path) = some (.message text) ↔
      (violations.get? field = some (.message text) ∧ path = []) ∨
        ∃ inner : Violations, violations.get? field = some (.nested inner) ∧
          inner.at? path = some (.message text) := by
  cases told : violations.get? field with
  | none => simp [at?_cons_of_none told]
  | some violation =>
    cases violation with
    | message other => by_cases last : path = [] <;> simp [at?_cons_of_message told, last]
    | nested inner => simp [at?_cons_of_nested told]

theorem at?_nil_eq_none (path : List String) (goesOn : path ≠ []) : at? [] path = none := by
  cases path with
  | nil => exact absurd rfl goesOn
  | cons field rest => exact at?_cons_of_none rfl rest

theorem ne_nil_of_at?_eq_message {violations : Violations} {path : List String} {text : String}
    (found : violations.at? path = some (.message text)) : violations ≠ [] := by
  rintro rfl
  by_cases ends : path = []
  · subst ends
    exact at?_nil_ne_message [] text found
  · rw [at?_nil_eq_none path ends] at found
    cases found

/-- Behind a message nothing more is found. -/
theorem at?_append_of_message {violations : Violations} {path further : List String} {text : String}
    (found : violations.at? path = some (.message text)) (goesOn : further ≠ []) :
    violations.at? (path ++ further) = none := by
  induction path generalizing violations with
  | nil => exact absurd found (at?_nil_ne_message violations text)
  | cons field path ih =>
    rw [List.cons_append]
    obtain ⟨told, rfl⟩ | ⟨inner, told, found⟩ := (at?_cons_eq_message_iff _ _ _ _).mp found
    · rw [at?_cons_of_message told]
      exact if_neg goesOn
    · rw [at?_cons_of_nested told]
      exact ih found

/-- What a path finds is told by its first field. -/
theorem at?_cons_congr {violations others : Violations} {field : String}
    (same : violations.get? field = others.get? field) (path : List String) :
    violations.at? (field :: path) = others.at? (field :: path) := by
  cases told : others.get? field with
  | none => rw [at?_cons_of_none told, at?_cons_of_none (same.trans told)]
  | some violation =>
    cases violation with
    | message text => rw [at?_cons_of_message told, at?_cons_of_message (same.trans told)]
    | nested inner => rw [at?_cons_of_nested told, at?_cons_of_nested (same.trans told)]

/-- A message is listed under a path exactly if the path leads to it. -/
theorem Orderly.mem_messages_iff {violations : Violations} (orderly : violations.Orderly)
    (path : List String) (text : String) :
    (path, text) ∈ violations.messages ↔ violations.at? path = some (.message text) := by
  induction path generalizing violations with
  | nil =>
    have unlisted := nil_not_mem_fieldsMessages violations text
    exact ⟨fun listed => absurd listed unlisted, fun found => absurd found (at?_nil_ne_message _ _)⟩
  | cons field path ih =>
    rw [messages, mem_fieldsMessages_iff, at?_cons_eq_message_iff]
    constructor
    · rintro ⟨violation, member, listed⟩
      have told := (orderly.get?_eq_some_iff field violation).mpr member
      cases violation with
      | message other =>
        cases List.mem_singleton.mp listed
        exact .inl ⟨told, rfl⟩
      | nested inner => exact .inr ⟨inner, told, (ih (orderly.inner member)).mp listed⟩
    · rintro (⟨told, rfl⟩ | ⟨inner, told, found⟩)
      · exact ⟨_, (orderly.get?_eq_some_iff _ _).mp told, List.mem_singleton_self _⟩
      · have member := (orderly.get?_eq_some_iff _ _).mp told
        exact ⟨_, member, (ih (orderly.inner member)).mpr found⟩

theorem nodup_fieldsMessages {violations : Violations}
    (distinct : (violations.map Prod.fst).Nodup)
    (parts : ∀ entry ∈ violations, (entry.2.messages.map Prod.fst).Nodup) :
    ((Violation.fieldsMessages violations).map Prod.fst).Nodup := by
  induction violations with
  | nil => exact List.nodup_nil
  | cons head rest ih =>
    obtain ⟨field, violation⟩ := head
    obtain ⟨fresh, distinct⟩ := List.nodup_cons.mp distinct
    obtain ⟨own, parts⟩ := List.forall_mem_cons.mp parts
    rw [Violation.fieldsMessages, List.map_append, List.map_map, List.nodup_append]
    refine ⟨?_, ih distinct parts, ?_⟩
    · have longer : (violation.messages.map Prod.fst).map (field :: ·) =
          violation.messages.map (Prod.fst ∘ fun m => (field :: m.1, m.2)) := List.map_map
      rw [← longer]
      exact own.map (fun _ _ same => (List.cons.inj same).2)
    · rintro path first other later rfl
      obtain ⟨m, _, rfl⟩ := List.mem_map.mp first
      obtain ⟨⟨_, text⟩, listed, rfl⟩ := List.mem_map.mp later
      obtain ⟨violation', member, _⟩ := (mem_fieldsMessages_iff rest _ _ _).mp listed
      exact fresh (List.mem_map.mpr ⟨_, member, rfl⟩)

/-- No path leads to two messages. -/
theorem Orderly.nodup_messages {violations : Violations} (orderly : violations.Orderly) :
    (violations.messages.map Prod.fst).Nodup := by
  induction orderly with
  | mk ordered _ ih =>
    refine nodup_fieldsMessages ordered.nodup ?_
    rintro ⟨field, violation⟩ member
    cases violation with
    | message text => exact List.nodup_singleton _
    | nested inner => exact ih field inner member

/-! ## Gathering keeps the order -/

theorem Orderly.nil : Orderly [] := .mk .nil (fun _ _ member => absurd member List.not_mem_nil)

theorem Orderly.insert {violations : Violations} (orderly : violations.Orderly) (field : String)
    {violation : Violation} (part : ∀ inner, violation = .nested inner → Orderly inner) :
    Orderly (Table.insert violations field violation) := by
  refine .mk (Table.insert_ordered orderly.ordered field violation) ?_
  intro name inner member
  obtain same | member := Table.mem_of_mem_insert member
  · exact part inner (Prod.mk.inj same).2.symm
  · exact orderly.inner member

theorem Orderly.add {violations : Violations} (orderly : violations.Orderly)
    (field message : String) : (violations.add field message).Orderly :=
  orderly.insert field nofun

theorem Orderly.nest {violations inner : Violations} (orderly : violations.Orderly)
    (field : String) (part : inner.Orderly) : (violations.nest field inner).Orderly := by
  cases inner with
  | nil => exact orderly
  | cons head rest =>
    apply orderly.insert field
    rintro _ ⟨⟩
    exact part

theorem Gathered.orderly {violations : Violations} (gathered : violations.Gathered) :
    violations.Orderly := by
  induction gathered with
  | nil => exact .nil
  | add _ _ _ ih => exact ih.add _ _
  | nest _ _ _ ih part => exact ih.nest _ part

/-! ## What is gathered under a field -/

/-- What is told of a free field stands there, and the other fields stay as they are. -/
theorem get?_insert_eq_some_iff {violations : Violations} {field : String}
    (fresh : violations.get? field = none) (entry : Violation) (name : String)
    (violation : Violation) : get? (Table.insert violations field entry) name = some violation ↔
      violations.get? name = some violation ∨ name = field ∧ violation = entry := by
  by_cases same : name = field
  · subst same
    have told : get? (Table.insert violations name entry) name = some entry :=
      Table.lookup_insert_self _ _ _
    simp [told, fresh, eq_comm]
  · have kept : get? (Table.insert violations field entry) name = violations.get? name :=
      Table.lookup_insert_other _ _ same
    simp [kept, same]

theorem get?_nest_eq_some_iff {violations : Violations} {field : String}
    (fresh : violations.get? field = none) (inner : Violations) (name : String)
    (violation : Violation) : (violations.nest field inner).get? name = some violation ↔
      violations.get? name = some violation ∨
        name = field ∧ inner ≠ [] ∧ violation = .nested inner := by
  cases inner with
  | nil => simp [nest]
  | cons head rest => simp [nest, get?_insert_eq_some_iff fresh]

/-- Under a field that is checked stands the first rule that fails, else what is wrong with the
items. -/
theorem get?_checkList_eq_some_iff {violations : Violations} {field : String}
    (fresh : violations.get? field = none) (rules : List (Option String)) (items : Violations)
    (name : String) (violation : Violation) :
    (violations.checkList field rules items).get? name = some violation ↔
      violations.get? name = some violation ∨ name = field ∧
        ((∃ message, rules.findSome? id = some message ∧ violation = .message message) ∨
          rules.findSome? id = none ∧ items ≠ [] ∧ violation = .nested items) := by
  unfold checkList
  cases rules.findSome? id with
  | some message => simp [add, get?_insert_eq_some_iff fresh]
  | none => simp [get?_nest_eq_some_iff fresh]

/-- A path into a field that is checked ends at the first rule that fails, else it goes on in the
items. -/
theorem at?_checkList_eq_message_iff {violations : Violations} {field : String}
    (fresh : violations.get? field = none) (rules : List (Option String)) (items : Violations)
    (name : String) (path : List String) (text : String) :
    (violations.checkList field rules items).at? (name :: path) = some (.message text) ↔
      violations.at? (name :: path) = some (.message text) ∨ name = field ∧
        ((rules.findSome? id = some text ∧ path = []) ∨
          rules.findSome? id = none ∧ items.at? path = some (.message text)) := by
  have told := get?_checkList_eq_some_iff fresh rules items name
  rw [at?_cons_eq_message_iff, at?_cons_eq_message_iff, told]
  constructor
  · rintro (⟨here | ⟨same, ⟨message, broken, here⟩ | ⟨_, _, here⟩⟩, ends⟩ | ⟨inner, here, found⟩)
    · exact .inl (.inl ⟨here, ends⟩)
    · cases here
      exact .inr ⟨same, .inl ⟨broken, ends⟩⟩
    · cases here
    · obtain here | ⟨same, ⟨_, _, here⟩ | ⟨hold, _, here⟩⟩ := (told _).mp here
      · exact .inl (.inr ⟨inner, here, found⟩)
      · cases here
      · cases here
        exact .inr ⟨same, .inr ⟨hold, found⟩⟩
  · rintro ((⟨here, ends⟩ | ⟨inner, here, found⟩) | ⟨same, ⟨broken, ends⟩ | ⟨hold, found⟩⟩)
    · exact .inl ⟨.inl here, ends⟩
    · exact .inr ⟨inner, (told _).mpr (.inl here), found⟩
    · exact .inl ⟨.inr ⟨same, .inl ⟨text, broken, rfl⟩⟩, ends⟩
    · have faulty := ne_nil_of_at?_eq_message found
      exact .inr ⟨items, (told _).mpr (.inr ⟨same, .inr ⟨hold, faulty, rfl⟩⟩), found⟩

theorem get?_check_eq_some_iff {violations : Violations} {field : String}
    (fresh : violations.get? field = none) (rules : List (Option String)) (name : String)
    (violation : Violation) : (violations.check field rules).get? name = some violation ↔
      violations.get? name = some violation ∨
        name = field ∧ ∃ message, rules.findSome? id = some message ∧ violation = .message message := by
  have same : violations.check field rules = violations.checkList field rules [] := rfl
  rw [same, get?_checkList_eq_some_iff fresh]
  simp

/-- No two indices are written alike. -/
theorem index_inj {i j : Nat} (same : toString i = toString j) : i = j := by
  rw [Nat.toString_eq_ofList_toDigits, Nat.toString_eq_ofList_toDigits, String.ofList_inj] at same
  have back := congrArg (Nat.ofDigitChars 10 · 0) same
  simpa only [Nat.ofDigitChars_ten_toDigits] using back

/-- Items are told by their index. -/
theorem get?_eachFrom_eq_some_iff {α : Type} (check : α → Violations) {index : Nat}
    {violations : Violations} (fresh : ∀ i, index ≤ i → violations.get? (toString i) = none)
    (items : List α) (name : String) (violation : Violation) :
    (eachFrom check index violations items).get? name = some violation ↔
      violations.get? name = some violation ∨ ∃ i item, items[i]? = some item ∧
        name = toString (index + i) ∧ check item ≠ [] ∧ violation = .nested (check item) := by
  induction items generalizing index violations with
  | nil => simp [eachFrom]
  | cons item rest ih =>
    have nested := get?_nest_eq_some_iff (fresh index (Nat.le_refl _)) (check item)
    -- What is told of this item leaves the later indices free, as no two are written alike.
    have fresh' : ∀ i, index + 1 ≤ i →
        (violations.nest (toString index) (check item)).get? (toString i) = none := by
      intro i later
      rw [Option.eq_none_iff_forall_ne_some]
      intro other told
      obtain told | ⟨same, _⟩ := (nested _ other).mp told
      · rw [fresh i (by omega)] at told
        cases told
      · have := index_inj same
        omega
    rw [eachFrom, ih fresh', nested, or_assoc]
    apply or_congr_right
    constructor
    · rintro (⟨rfl, faulty, rfl⟩ | ⟨i, other, placed, rfl, faulty⟩)
      · exact ⟨0, item, rfl, rfl, faulty, rfl⟩
      · refine ⟨i + 1, other, placed, ?_, faulty⟩
        rw [Nat.add_right_comm, Nat.add_assoc]
    · rintro ⟨_ | i, other, placed, rfl, faulty, rfl⟩
      · cases placed
        exact .inl ⟨rfl, faulty, rfl⟩
      · refine .inr ⟨i, other, placed, ?_, faulty, rfl⟩
        rw [Nat.add_right_comm, Nat.add_assoc]

theorem get?_each_eq_some_iff {α : Type} (check : α → Violations) (items : List α) (name : String)
    (violation : Violation) : (each check items).get? name = some violation ↔
      ∃ (i : Nat) (item : α), items[i]? = some item ∧ name = toString i ∧ check item ≠ [] ∧
        violation = .nested (check item) := by
  have fresh : ∀ i : Nat, 0 ≤ i → get? [] (toString i) = none := fun _ _ => rfl
  rw [each, get?_eachFrom_eq_some_iff check fresh]
  simp [get?]

/-- A message among the items stands below the index of one of them, where this item has it. -/
theorem at?_each_eq_message_iff {α : Type} (check : α → Violations) (items : List α)
    (path : List String) (text : String) : (each check items).at? path = some (.message text) ↔
      ∃ (i : Nat) (item : α) (rest : List String), items[i]? = some item ∧
        path = toString i :: rest ∧ (check item).at? rest = some (.message text) := by
  cases path with
  | nil =>
    have nowhere := at?_nil_ne_message (each check items) text
    constructor
    · intro found
      exact absurd found nowhere
    · rintro ⟨_, _, _, _, same, _⟩
      cases same
  | cons field path =>
    rw [at?_cons_eq_message_iff]
    constructor
    · rintro (⟨told, _⟩ | ⟨inner, told, found⟩)
      · obtain ⟨_, _, _, _, _, same⟩ := (get?_each_eq_some_iff check items field _).mp told
        cases same
      · obtain ⟨i, item, placed, rfl, _, same⟩ := (get?_each_eq_some_iff check items field _).mp told
        cases same
        exact ⟨i, item, path, placed, rfl, found⟩
    · rintro ⟨i, item, rest, placed, same, found⟩
      cases same
      have faulty := ne_nil_of_at?_eq_message found
      have told := (get?_each_eq_some_iff check items _ _).mpr ⟨i, item, placed, rfl, faulty, rfl⟩
      exact .inr ⟨check item, told, found⟩

end Violations

end FleetSearch
