import FleetSearch.Proofs.Addressing
import FleetSearch.Proofs.Dots
import Mathlib.Logic.ExistsUnique

/-! # Naming

The field of an attribute is its scope, its name and the suffix of a kind, joined by underscores.
Neither a known scope nor a suffix has an underscore, so a field is taken apart in one way only, at
its first and at its last underscore, whatever the name holds in between. So the fields of different
attributes differ, and none of them is a field that all documents have. -/
namespace FleetSearch

/-! ## Taking a text apart -/

/-- A text has one first part without marks, and one mark behind it. -/
theorem append_marks_inj {α : Type} {marks before before' after after' : List α} {mark mark' : α}
    (known : mark ∈ marks) (known' : mark' ∈ marks) (clear : ∀ m ∈ marks, m ∉ before)
    (clear' : ∀ m ∈ marks, m ∉ before') (same : before ++ mark :: after = before' ++ mark' :: after') :
    before = before' ∧ mark = mark' ∧ after = after' := by
  induction before generalizing before' with
  | nil =>
    cases before' with
    | nil =>
      obtain ⟨rfl, rfl⟩ := List.cons.inj same
      exact ⟨rfl, rfl, rfl⟩
    | cons c rest =>
      obtain ⟨rfl, _⟩ := List.cons.inj same
      exact absurd List.mem_cons_self (clear' _ known)
  | cons c rest ih =>
    cases before' with
    | nil =>
      obtain ⟨rfl, _⟩ := List.cons.inj same
      exact absurd List.mem_cons_self (clear _ known')
    | cons c' rest' =>
      obtain ⟨rfl, tails⟩ := List.cons.inj same
      have later : ∀ m ∈ marks, m ∉ rest := fun m known member =>
        clear m known (List.mem_cons_of_mem _ member)
      have later' : ∀ m ∈ marks, m ∉ rest' := fun m known member =>
        clear' m known (List.mem_cons_of_mem _ member)
      obtain ⟨rfl, rest⟩ := ih later later' tails
      exact ⟨rfl, rest⟩

theorem append_mark_inj {α : Type} {mark : α} {before before' after after' : List α}
    (clear : mark ∉ before) (clear' : mark ∉ before')
    (same : before ++ mark :: after = before' ++ mark :: after') :
    before = before' ∧ after = after' := by
  have known : mark ∈ [mark] := List.mem_singleton_self mark
  obtain ⟨firsts, _, rests⟩ := append_marks_inj known known
    (List.forall_mem_singleton.mpr clear) (List.forall_mem_singleton.mpr clear') same
  exact ⟨firsts, rests⟩

namespace FieldName

theorem splitLast?_eq_none_iff (mark : Char) (cs : List Char) :
    splitLast? mark cs = none ↔ mark ∉ cs := by
  induction cs with
  | nil => exact ⟨fun _ => List.not_mem_nil, fun _ => rfl⟩
  | cons c rest ih =>
    rw [splitLast?, List.mem_cons, not_or, ← ih]
    cases later : splitLast? mark rest with
    | some parts => simp
    | none => simp [eq_comm]

theorem splitLast?_append {mark : Char} {after : List Char} (clear : mark ∉ after)
    (before : List Char) : splitLast? mark (before ++ mark :: after) = some (before, after) := by
  induction before with
  | nil =>
    have nothing := (splitLast?_eq_none_iff mark after).mpr clear
    rw [List.nil_append, splitLast?, nothing]
    exact if_pos rfl
  | cons c rest ih =>
    rw [List.cons_append, splitLast?, ih]

/-- The parts are those around the last mark. -/
theorem splitLast?_eq_some_iff {mark : Char} {cs before after : List Char} :
    splitLast? mark cs = some (before, after) ↔ cs = before ++ mark :: after ∧ mark ∉ after := by
  constructor
  · intro split
    induction cs generalizing before with
    | nil => cases split
    | cons c rest ih =>
      rw [splitLast?] at split
      cases later : splitLast? mark rest with
      | some parts =>
        obtain ⟨b, a⟩ := parts
        rw [later] at split
        cases split
        obtain ⟨rfl, clear⟩ := ih later
        exact ⟨rfl, clear⟩
      | none =>
        rw [later] at split
        have clear := (splitLast?_eq_none_iff mark rest).mp later
        by_cases here : c = mark
        · simp only [if_pos here] at split
          cases split
          exact ⟨congrArg (· :: _) here, clear⟩
        · simp only [if_neg here] at split
          cases split
  · rintro ⟨rfl, clear⟩
    exact splitLast?_append clear before

/-! ## What a field is put together of -/

/-- A field for an attribute of a known scope: the name as it is kept, between the scope and the
suffix of a kind. -/
structure Composed (field scope kept suffix : String) : Prop where
  known : scope ∈ scopes
  named : kept ≠ ""
  marked : suffix ∈ ["str", "num", "bool"]
  spelt : field = scope ++ "_" ++ kept ++ "_" ++ suffix

theorem scope_clear {scope : String} (known : scope ∈ scopes) : '_' ∉ scope.toList := by
  have all : ∀ scope ∈ scopes, '_' ∉ scope.toList := by decide
  exact all scope known

theorem suffix_clear {suffix : String} (marked : suffix ∈ ["str", "num", "bool"]) :
    '_' ∉ suffix.toList := by
  have all : ∀ suffix ∈ ["str", "num", "bool"], '_' ∉ suffix.toList := by decide
  exact all suffix marked

theorem suffix_mem (kind : ValueKind) : kind.suffix ∈ ["str", "num", "bool"] := by
  cases kind <;> decide

theorem suffix_inj {kind kind' : ValueKind} (same : kind.suffix = kind'.suffix) : kind = kind' := by
  have back := kind.ofSuffix?_suffix
  rw [same, kind'.ofSuffix?_suffix] at back
  exact (Option.some.inj back).symm

theorem ofSuffix?_eq_some_iff (text : String) (kind : ValueKind) :
    ValueKind.ofSuffix? text = some kind ↔ kind.suffix = text := by
  constructor
  · intro found
    have same := List.find?_some found
    exact eq_of_beq same
  · rintro rfl
    exact kind.ofSuffix?_suffix

/-- Every mark is that of a kind. -/
theorem exists_kind_of_marked {suffix : String} (marked : suffix ∈ ["str", "num", "bool"]) :
    ∃ kind : ValueKind, kind.suffix = suffix := by
  simp only [List.mem_cons, List.not_mem_nil, or_false] at marked
  rcases marked with rfl | rfl | rfl
  · exact ⟨.string, rfl⟩
  · exact ⟨.number, rfl⟩
  · exact ⟨.boolean, rfl⟩

theorem toList_joined (scope kept suffix : String) :
    (scope ++ "_" ++ kept ++ "_" ++ suffix).toList =
      scope.toList ++ '_' :: (kept.toList ++ '_' :: suffix.toList) := by
  simp [String.toList_append]

/-- Texts that are joined the same are the same, if neither the first nor the last has an
underscore. -/
theorem joined_inj {scope scope' kept kept' suffix suffix' : String}
    (first : '_' ∉ scope.toList) (first' : '_' ∉ scope'.toList)
    (last : '_' ∉ suffix.toList) (last' : '_' ∉ suffix'.toList)
    (same : scope ++ "_" ++ kept ++ "_" ++ suffix = scope' ++ "_" ++ kept' ++ "_" ++ suffix') :
    scope = scope' ∧ kept = kept' ∧ suffix = suffix' := by
  have chars := congrArg String.toList same
  rw [toList_joined, toList_joined] at chars
  obtain ⟨scopes_same, rest⟩ := append_mark_inj first first' chars
  have split := splitLast?_append last kept.toList
  rw [rest, splitLast?_append last' kept'.toList] at split
  obtain ⟨kept_same, suffix_same⟩ := Prod.mk.inj (Option.some.inj split)
  exact ⟨String.toList_inj.mp scopes_same, (String.toList_inj.mp kept_same).symm,
    (String.toList_inj.mp suffix_same).symm⟩

/-- A field is put together in one way only. -/
theorem Composed.unique {field scope scope' kept kept' suffix suffix' : String}
    (parts : Composed field scope kept suffix) (parts' : Composed field scope' kept' suffix') :
    scope = scope' ∧ kept = kept' ∧ suffix = suffix' :=
  joined_inj (scope_clear parts.known) (scope_clear parts'.known) (suffix_clear parts.marked)
    (suffix_clear parts'.marked) (parts.spelt.symm.trans parts'.spelt)

theorem of_eq_joined {scope : String} (inScope : scope ≠ "") (name : String) (kind : ValueKind) :
    FieldName.of scope name kind = scope ++ "_" ++ escapeDots name ++ "_" ++ kind.suffix :=
  if_neg inScope

theorem scope_ne_blank {scope : String} (known : scope ∈ scopes) : scope ≠ "" := by
  rintro rfl
  exact absurd known (by decide)

theorem composed_of {scope name : String} (known : scope ∈ scopes) (named : name ≠ "")
    (kind : ValueKind) :
    Composed (FieldName.of scope name kind) scope (escapeDots name) kind.suffix where
  known := known
  named := mt (escapeDots_eq_blank_iff name).mp named
  marked := suffix_mem kind
  spelt := of_eq_joined (scope_ne_blank known) name kind

/-! ## Reading a field -/

/-- Where a field goes on after a scope. -/
theorem prefixed_iff (scope field : String) :
    (scope ++ "_").toList.isPrefixOf field.toList = true ↔
      ∃ rest, field.toList = scope.toList ++ '_' :: rest := by
  rw [List.isPrefixOf_iff_prefix]
  simp [List.IsPrefix, String.toList_append, eq_comm]

theorem drop_scope (scope : String) (rest : List Char) :
    (scope.toList ++ '_' :: rest).drop (scope.length + 1) = rest := by
  rw [← String.length_toList, ← List.drop_drop, List.drop_left]
  rfl

/-- Of the known scopes a field can begin with one only. -/
theorem find?_scope_eq_some_iff (field scope : String) :
    scopes.find? (fun scope => (scope ++ "_").toList.isPrefixOf field.toList) = some scope ↔
      scope ∈ scopes ∧ ∃ rest, field.toList = scope.toList ++ '_' :: rest := by
  constructor
  · intro found
    have fits := List.find?_some found
    exact ⟨List.mem_of_find?_eq_some found, (prefixed_iff scope field).mp fits⟩
  · rintro ⟨known, rest, spelt⟩
    have fits := (prefixed_iff scope field).mpr ⟨rest, spelt⟩
    -- A known scope that is found earlier ends at the same underscore, the first of the field.
    cases found : scopes.find? fun scope => (scope ++ "_").toList.isPrefixOf field.toList with
    | none => exact absurd fits (List.find?_eq_none.mp found scope known)
    | some other =>
      have fits' := List.find?_some found
      obtain ⟨rest', spelt'⟩ := (prefixed_iff other field).mp fits'
      have clear' := scope_clear (List.mem_of_find?_eq_some found)
      have same := (append_mark_inj clear' (scope_clear known) (spelt'.symm.trans spelt)).1
      rw [String.toList_inj.mp same]

/-- Exactly the fields that are put together are read. -/
theorem parse?_eq_some_iff (field scope name : String) :
    parse? field = some (scope, name) ↔
      ∃ kept suffix, Composed field scope kept suffix ∧ name = restoreDots kept := by
  unfold parse?
  constructor
  · intro read
    obtain ⟨found, isScope, read⟩ := Option.bind_eq_some_iff.mp read
    obtain ⟨⟨kept, suffix⟩, split, read⟩ := Option.bind_eq_some_iff.mp read
    obtain ⟨known, rest, spelt⟩ := (find?_scope_eq_some_iff field found).mp isScope
    rw [spelt, drop_scope] at split
    obtain ⟨rfl, _⟩ := splitLast?_eq_some_iff.mp split
    by_cases blank : kept = []
    · simp [blank] at read
    · simp only [List.isEmpty_iff, blank, if_false] at read
      obtain ⟨kind, marked, read⟩ := Option.bind_eq_some_iff.mp read
      cases read
      refine ⟨String.ofList kept, String.ofList suffix, ⟨known, ?_, ?_, ?_⟩, ?_⟩
      · simpa [← String.toList_inj] using blank
      · rw [← (ofSuffix?_eq_some_iff _ kind).mp marked]
        exact suffix_mem kind
      · rw [← String.toList_inj, toList_joined, String.toList_ofList, String.toList_ofList]
        exact spelt
      · rw [restoreDots, String.toList_ofList]
  · rintro ⟨kept, suffix, parts, rfl⟩
    have spelt := congrArg String.toList parts.spelt
    rw [toList_joined] at spelt
    have isScope := (find?_scope_eq_some_iff field scope).mpr ⟨parts.known, _, spelt⟩
    -- The name may have underscores of its own, but the suffix has none.
    have split := splitLast?_append (suffix_clear parts.marked) kept.toList
    have named : kept.toList ≠ [] := by simpa using parts.named
    obtain ⟨kind, same⟩ := exists_kind_of_marked parts.marked
    have marked := (ofSuffix?_eq_some_iff suffix kind).mpr same
    simp only [isScope, Option.bind_eq_bind, Option.bind_some]
    simp only [spelt, drop_scope, split, Option.bind_some, List.isEmpty_iff, named, if_false,
      String.ofList_toList, marked]
    rfl

/-- A field without a name in it is none of an attribute. -/
theorem parse?_of {scope : String} (known : scope ∈ scopes) (name : String) (kind : ValueKind) :
    parse? (FieldName.of scope name kind) =
      if name = "" then none else some (scope, restoreDots (escapeDots name)) := by
  by_cases blank : name = ""
  · rw [if_pos blank]
    cases read : parse? (FieldName.of scope name kind) with
    | none => rfl
    | some found =>
      obtain ⟨scope', name'⟩ := found
      obtain ⟨kept, suffix, parts, _⟩ := (parse?_eq_some_iff _ _ _).mp read
      have spelt := parts.spelt
      rw [of_eq_joined (scope_ne_blank known)] at spelt
      obtain ⟨_, same, _⟩ := joined_inj (scope_clear known) (scope_clear parts.known)
        (suffix_clear (suffix_mem kind)) (suffix_clear parts.marked) spelt
      rw [(escapeDots_eq_blank_iff name).mpr blank] at same
      exact absurd same.symm parts.named
  · rw [if_neg blank]
    exact (parse?_eq_some_iff _ _ _).mpr ⟨_, _, composed_of known blank kind, rfl⟩

/-- A field without dots is written again as it was read, under one kind only. -/
theorem existsUnique_kind_of_parse? {field scope name : String} (undotted : '.' ∉ field.toList)
    (read : parse? field = some (scope, name)) : ∃! kind, FieldName.of scope name kind = field := by
  obtain ⟨kept, suffix, parts, rfl⟩ := (parse?_eq_some_iff _ _ _).mp read
  have inScope := scope_ne_blank parts.known
  have kept_undotted : '.' ∉ kept.toList := by
    intro dotted
    apply undotted
    rw [parts.spelt, toList_joined]
    simp [dotted]
  obtain ⟨kind, rfl⟩ := exists_kind_of_marked parts.marked
  have written : FieldName.of scope (restoreDots kept) kind = field := by
    rw [of_eq_joined inScope, escapeDots_restoreDots kept_undotted, parts.spelt]
  refine ⟨kind, written, ?_⟩
  intro other same
  have spelt := same.trans written.symm
  rw [of_eq_joined inScope, of_eq_joined inScope] at spelt
  have first := scope_clear parts.known
  exact suffix_inj (joined_inj first first (suffix_clear (suffix_mem other))
    (suffix_clear (suffix_mem kind)) spelt).2.2

/-- What follows a scope starts inside the field, and between two characters. -/
theorem rest_of_scope {field scope : String}
    (found : scopes.find? (fun scope => (scope ++ "_").toList.isPrefixOf field.toList) = some scope) :
    (String.Pos.Raw.mk (scope.utf8ByteSize + 1)).IsValid field ∧
      field = scope ++ "_" ++ String.ofList (field.toList.drop (scope.length + 1)) := by
  obtain ⟨_, rest, spelt⟩ := (find?_scope_eq_some_iff field scope).mp found
  have whole : field = scope ++ "_" ++ String.ofList rest := by
    rw [← String.toList_inj, spelt]
    simp [String.toList_append]
  constructor
  · refine String.Pos.Raw.isValid_iff_exists_append.mpr ⟨_, _, whole, ?_⟩
    rw [String.Pos.Raw.ext_iff, String.byteIdx_rawEndPos, String.utf8ByteSize_append]
    rfl
  · rw [spelt, drop_scope]
    exact whole

/-- A field is read exactly if it is put together of a known scope, a name that is not blank and the
suffix of a kind, which it is in one way only. Its name is then the one that is kept, with its dots;
nothing else is read, and what is read after a scope lies in the field. So the field of an attribute
is read as its scope and name unless the name is blank, and of a field without dots that is read,
one kind gives it back. -/
theorem fields_read_exactly :
    (∀ field : String,
      (∀ scope name, parse? field = some (scope, name) ↔
        ∃ kept suffix, Composed field scope kept suffix ∧ name = restoreDots kept) ∧
      (∀ scope kept suffix scope' kept' suffix', Composed field scope kept suffix →
        Composed field scope' kept' suffix' → scope = scope' ∧ kept = kept' ∧ suffix = suffix') ∧
      ((¬ ∃ scope kept suffix, Composed field scope kept suffix) → parse? field = none) ∧
      ∀ scope, scopes.find? (fun scope => (scope ++ "_").toList.isPrefixOf field.toList) = some scope →
        (String.Pos.Raw.mk (scope.utf8ByteSize + 1)).IsValid field ∧
          field = scope ++ "_" ++ String.ofList (field.toList.drop (scope.length + 1))) ∧
    (∀ scope ∈ scopes, ∀ name kind, parse? (FieldName.of scope name kind) =
      if name = "" then none else some (scope, restoreDots (escapeDots name))) ∧
    ∀ field scope name, '.' ∉ field.toList → parse? field = some (scope, name) →
      ∃! kind, FieldName.of scope name kind = field := by
  refine ⟨?_, ?_, ?_⟩
  · intro field
    refine ⟨parse?_eq_some_iff field, ?_, ?_, ?_⟩
    · intro scope kept suffix scope' kept' suffix' parts parts'
      exact parts.unique parts'
    · intro apart
      cases read : parse? field with
      | none => rfl
      | some found =>
        obtain ⟨kept, suffix, parts, _⟩ := (parse?_eq_some_iff field found.1 found.2).mp read
        exact absurd ⟨_, kept, suffix, parts⟩ apart
    · intro scope found
      exact rest_of_scope found
  · intro scope known name kind
    exact parse?_of known name kind
  · intro field scope name undotted read
    exact existsUnique_kind_of_parse? undotted read

/-- A name with a dot and an underscore, and a fixed field, which is none of an attribute. -/
theorem fields_read_exactly_load :
    let field := "monitor_cpu\\\\load_avg_num"
    (Composed field "monitor" "cpu\\\\load_avg" "num" ∧
      parse? field = some ("monitor", "cpu.load_avg") ∧
      ∀ scope kept suffix, Composed field scope kept suffix →
        "monitor" = scope ∧ "cpu\\\\load_avg" = kept ∧ "num" = suffix) ∧
    ("monitor" ∈ scopes ∧
      scopes.find? (fun scope => (scope ++ "_").toList.isPrefixOf field.toList) = some "monitor" ∧
      (String.Pos.Raw.mk 8).IsValid field) ∧
    ('.' ∉ field.toList ∧ ∃! kind, FieldName.of "monitor" "cpu.load_avg" kind = field) ∧
    (¬ ∃ scope kept suffix, Composed "check_in_time" scope kept suffix) ∧
      parse? "check_in_time" = none := by
  intro field
  obtain ⟨reads, unique, _, within⟩ := fields_read_exactly.1 field
  have known : "monitor" ∈ scopes := by decide
  have parts : Composed field "monitor" "cpu\\\\load_avg" "num" := ⟨known, by decide, by decide, rfl⟩
  have read := (reads "monitor" "cpu.load_avg").mpr ⟨_, _, parts, by decide⟩
  have found : scopes.find? (fun scope => (scope ++ "_").toList.isPrefixOf field.toList) =
      some "monitor" := by decide
  have undotted : '.' ∉ field.toList := by decide
  have apart : ¬ ∃ scope kept suffix, Composed "check_in_time" scope kept suffix := by
    rintro ⟨scope, kept, suffix, other⟩
    have first := (find?_scope_eq_some_iff "check_in_time" scope).mpr
      ⟨other.known, _, (congrArg String.toList other.spelt).trans (toList_joined _ _ _)⟩
    have nothing : scopes.find? (fun scope =>
        (scope ++ "_").toList.isPrefixOf "check_in_time".toList) = none := by decide
    rw [nothing] at first
    cases first
  exact ⟨⟨parts, read, fun _ _ _ other => unique _ _ _ _ _ _ parts other⟩,
    ⟨known, found, (within _ found).1⟩,
    ⟨undotted, fields_read_exactly.2.2 field _ _ undotted read⟩,
    apart, (fields_read_exactly.1 "check_in_time").2.2.1 apart⟩

/-! ## Fields that differ -/

/-- Fields are the same exactly if the scopes, the kinds and the names as they are kept are. -/
theorem of_eq_iff {scope scope' : String} (known : scope ∈ scopes) (known' : scope' ∈ scopes)
    (name name' : String) (kind kind' : ValueKind) :
    FieldName.of scope name kind = FieldName.of scope' name' kind' ↔
      scope = scope' ∧ kind = kind' ∧ escapeDots name = escapeDots name' := by
  rw [of_eq_joined (scope_ne_blank known), of_eq_joined (scope_ne_blank known')]
  constructor
  · intro same
    obtain ⟨scopes_same, kept_same, suffix_same⟩ := joined_inj (scope_clear known)
      (scope_clear known') (suffix_clear (suffix_mem kind)) (suffix_clear (suffix_mem kind')) same
    exact ⟨scopes_same, suffix_inj suffix_same, kept_same⟩
  · rintro ⟨rfl, rfl, same⟩
    rw [same]

theorem escapeDots_eq_iff {name name' : String} (plain : '\\' ∉ name.toList)
    (plain' : '\\' ∉ name'.toList) : escapeDots name = escapeDots name' ↔ name = name' := by
  constructor
  · intro same
    have back := congrArg restoreDots same
    rwa [restoreDots_escapeDots plain, restoreDots_escapeDots plain'] at back
  · exact congrArg escapeDots

/-- The fields that documents have under one name, whatever their attributes are. -/
def fixed : List String :=
  [id, tenant, location, checkIn, device, deployment, deploymentGroups]

/-- No fixed field ends in the suffix of a kind. -/
theorem not_mem_fixed {scope : String} (inScope : scope ≠ "") (name : String) (kind : ValueKind) :
    FieldName.of scope name kind ∉ fixed := by
  intro listed
  have split : splitLast? '_' (FieldName.of scope name kind).toList =
      some (scope.toList ++ '_' :: (escapeDots name).toList, kind.suffix.toList) := by
    rw [of_eq_joined inScope, toList_joined, ← List.cons_append, ← List.append_assoc]
    exact splitLast?_append (suffix_clear (suffix_mem kind)) _
  have last : ∀ field ∈ fixed, ∀ suffix ∈ ["str", "num", "bool"],
      (splitLast? '_' field.toList).map Prod.snd ≠ some suffix.toList := by decide
  apply last _ listed _ (suffix_mem kind)
  rw [split]
  rfl

end FieldName

namespace Predicate

variable {σ : Type} [Scoping σ]

/-- A filter looks its attribute up under the fields of its kinds, and `id` also under the field of
the documents. -/
theorem field_of_mem_fields {p : Predicate σ} {f : Filter} (built : p.filter = .ok f)
    {field : String} (member : field ∈ f.fields) :
    p.subject.name = "id" ∧ field = FieldName.id ∨ ∃ kind, field = p.subject.field kind := by
  obtain ⟨operator, _, built⟩ := exists_built built
  by_cases presence : operator = .present
  · subst presence
    cases built with
    | present wanted _ =>
      have listed : field ∈ p.subject.variants.toList := by
        cases wanted <;> exact member
      obtain ⟨kind, _, rfl⟩ : ∃ kind ∈ ValueKind.all, p.subject.field kind = field :=
        List.mem_map.mp listed
      exact .inr ⟨kind, rfl⟩
  · rw [built.fields_eq presence, List.mem_singleton] at member
    rw [member, target, Attribute.comparedField]
    by_cases same : p.subject.name = "id"
    · exact .inl ⟨same, if_pos same⟩
    · exact .inr ⟨p.operand.valueKind, if_neg same⟩

end Predicate

namespace FieldName

/-- Fields in known scopes are the same only for one scope, one kind and names that are kept alike,
which without backslashes are the same names. No field in any scope is a fixed one, so a filter on an
attribute in a scope never looks at a fixed field unless the attribute is `id`. -/
theorem fields_apart :
    (∀ scope ∈ scopes, ∀ scope' ∈ scopes, ∀ name name' kind kind',
      (FieldName.of scope name kind = FieldName.of scope' name' kind' ↔
        scope = scope' ∧ kind = kind' ∧ escapeDots name = escapeDots name') ∧
      ('\\' ∉ name.toList → '\\' ∉ name'.toList →
        (escapeDots name = escapeDots name' ↔ name = name') ∧
        (FieldName.of scope name kind = FieldName.of scope' name' kind' →
          scope = scope' ∧ name = name' ∧ kind = kind'))) ∧
    (∀ scope, scope ≠ "" → ∀ name kind, ∀ field ∈ fixed, FieldName.of scope name kind ≠ field) ∧
    ∀ p : Predicate Scope, p.subject.scope.name ≠ "" → p.subject.name ≠ "id" →
      ∀ f, p.filter = .ok f → ∀ field ∈ f.fields, field ∉ fixed := by
  refine ⟨?_, ?_, ?_⟩
  · intro scope known scope' known' name name' kind kind'
    have same_iff := of_eq_iff known known' name name' kind kind'
    refine ⟨same_iff, ?_⟩
    intro plain plain'
    have names_iff := escapeDots_eq_iff plain plain'
    refine ⟨names_iff, ?_⟩
    intro same
    obtain ⟨scopes_same, kinds_same, kept_same⟩ := same_iff.mp same
    exact ⟨scopes_same, names_iff.mp kept_same, kinds_same⟩
  · rintro scope inScope name kind field listed rfl
    exact not_mem_fixed inScope name kind listed
  · intro p inScope plain f built field member
    obtain ⟨special, _⟩ | ⟨kind, rfl⟩ := p.field_of_mem_fields built member
    · exact absurd special plain
    · exact not_mem_fixed inScope p.subject.name kind

/-- Two names that look like each other's fields, and a scope that begins like a fixed field. -/
theorem fields_apart_lookalikes :
    ("tags" ∈ scopes ∧ '\\' ∉ "a_str".toList ∧ '\\' ∉ "a".toList ∧
      FieldName.of "tags" "a_str" .number ≠ FieldName.of "tags" "a" .number) ∧
    ("deployment" ≠ "" ∧ "deployment_groups" ∈ fixed ∧
      FieldName.of "deployment" "groups" .string ≠ "deployment_groups") ∧
    let p : Predicate Scope := Predicate.of ⟨⟨"deployment"⟩, "groups"⟩ .equal (.string "east")
    p.subject.scope.name ≠ "" ∧ p.subject.name ≠ "id" ∧
      ∃ f, p.filter = .ok f ∧ f.fields = ["deployment_groups_str"] ∧
        ∀ field ∈ f.fields, field ∉ fixed := by
  have known : "tags" ∈ scopes := by decide
  have plain : '\\' ∉ "a_str".toList := by decide
  have plain' : '\\' ∉ "a".toList := by decide
  have named : "deployment" ≠ "" := by decide
  have listed : "deployment_groups" ∈ fixed := by decide
  refine ⟨⟨known, plain, plain', ?_⟩, ⟨named, listed, ?_⟩, ?_⟩
  · intro same
    have apart := (fields_apart.1 _ known _ known "a_str" "a" .number .number).2 plain plain'
    exact absurd (apart.2 same).2.1 (by decide)
  · exact fields_apart.2.1 _ named "groups" .string _ listed
  · intro p
    have others : p.subject.name ≠ "id" := by decide
    obtain ⟨f, built, looked⟩ : ∃ f, p.filter = .ok f ∧ f.fields = ["deployment_groups_str"] :=
      ⟨_, rfl, by decide⟩
    exact ⟨named, others, f, built, looked, fields_apart.2.2 p named others f built⟩

end FieldName

end FleetSearch
