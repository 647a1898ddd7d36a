import FleetSearch.FieldName

/-! # Dots in names

A dot is written as two backslashes, and a pair of backslashes is read as a dot. A text without dots
is written as it is read, and a name is read as it is written exactly if none of its backslashes
stands before another one or before a dot. -/
namespace FleetSearch.FieldName

/-- The characters of a name with its dots written as marks. -/
def escapeDotsIn (cs : List Char) : List Char :=
  cs.flatMap fun c => if c = '.' then dotMark.toList else [c]

theorem toList_escapeDots (name : String) : (escapeDots name).toList = escapeDotsIn name.toList :=
  String.toList_ofList

theorem toList_restoreDots (text : String) :
    (restoreDots text).toList = restoreDotsIn text.toList :=
  String.toList_ofList

theorem escapeDotsIn_dot (rest : List Char) :
    escapeDotsIn ('.' :: rest) = '\\' :: '\\' :: escapeDotsIn rest := rfl

theorem escapeDotsIn_other {c : Char} (other : c ≠ '.') (rest : List Char) :
    escapeDotsIn (c :: rest) = c :: escapeDotsIn rest := by
  rw [escapeDotsIn, List.flatMap_cons, if_neg other]
  rfl

/-- Nothing is lost of a name that is not blank. -/
theorem escapeDots_eq_blank_iff (name : String) : escapeDots name = "" ↔ name = "" := by
  rw [← String.toList_eq_nil_iff, ← String.toList_eq_nil_iff, toList_escapeDots]
  cases name.toList with
  | nil => exact Iff.rfl
  | cons c rest =>
    by_cases dot : c = '.'
    · simp [dot, escapeDotsIn_dot]
    · simp [escapeDotsIn_other dot]

theorem dot_not_mem_escapeDots (name : String) : '.' ∉ (escapeDots name).toList := by
  rw [toList_escapeDots]
  intro dotted
  obtain ⟨c, _, within⟩ := List.mem_flatMap.mp dotted
  by_cases dot : c = '.'
  · rw [if_pos dot] at within
    exact absurd within (by decide)
  · rw [if_neg dot] at within
    exact dot (List.mem_singleton.mp within).symm

/-- A name is written as it stands exactly if it has no dot. -/
theorem escapeDots_eq_self_iff (name : String) : escapeDots name = name ↔ '.' ∉ name.toList := by
  constructor
  · intro same
    rw [← same]
    exact dot_not_mem_escapeDots name
  · intro undotted
    rw [← String.toList_inj, toList_escapeDots]
    generalize name.toList = cs at undotted
    induction cs with
    | nil => rfl
    | cons c rest ih =>
      obtain ⟨first, later⟩ := not_or.mp (mt List.mem_cons.mpr undotted)
      rw [escapeDotsIn_other (Ne.symm first), ih later]

/-- A character that is no backslash is read as itself. -/
theorem restoreDotsIn_plain {c : Char} (plain : c ≠ '\\') (rest : List Char) :
    restoreDotsIn (c :: rest) = c :: restoreDotsIn rest := by
  rw [restoreDotsIn]
  intro _ backslash _
  exact plain backslash

theorem restoreDotsIn_backslash {next : Char} (plain : next ≠ '\\') (rest : List Char) :
    restoreDotsIn ('\\' :: next :: rest) = '\\' :: restoreDotsIn (next :: rest) := by
  rw [restoreDotsIn]
  intro _ _ pair
  exact plain (List.cons.inj pair).1

/-! ## Names that are read as they are written -/

theorem pair_infix_cons_iff (first second c : Char) (rest : List Char) :
    [first, second] <:+: c :: rest ↔
      c = first ∧ rest.head? = some second ∨ [first, second] <:+: rest := by
  rw [List.infix_cons_iff, List.cons_prefix_cons, eq_comm]
  cases rest with
  | nil => simp
  | cons d rest => simp [List.cons_prefix_cons, eq_comm]

/-- No backslash stands before another one or before a dot. -/
def LoneBackslashes (cs : List Char) : Prop := ¬ ['\\', '\\'] <:+: cs ∧ ¬ ['\\', '.'] <:+: cs

theorem loneBackslashes_cons_iff (c : Char) (rest : List Char) :
    LoneBackslashes (c :: rest) ↔
      (c = '\\' → rest.head? ≠ some '\\' ∧ rest.head? ≠ some '.') ∧ LoneBackslashes rest := by
  simp only [LoneBackslashes, pair_infix_cons_iff, not_or, not_and]
  constructor
  · rintro ⟨⟨doubled, first⟩, dotted, second⟩
    exact ⟨fun backslash => ⟨doubled backslash, dotted backslash⟩, first, second⟩
  · rintro ⟨next, first, second⟩
    exact ⟨⟨fun backslash => (next backslash).1, first⟩, fun backslash => (next backslash).2, second⟩

/-- Only a backslash can go wrong: with the one after it, or the first that a dot is written as, it
is read as a dot. -/
theorem restoreDotsIn_escapeDotsIn_iff (cs : List Char) :
    restoreDotsIn (escapeDotsIn cs) = cs ↔ LoneBackslashes cs := by
  induction cs with
  | nil => simp [LoneBackslashes, escapeDotsIn, restoreDotsIn]
  | cons c rest ih =>
    rw [loneBackslashes_cons_iff, ← ih]
    by_cases dot : c = '.'
    · subst dot
      simp [escapeDotsIn_dot, restoreDotsIn]
    rw [escapeDotsIn_other dot]
    by_cases backslash : c = '\\'
    · subst backslash
      cases rest with
      | nil => simp [escapeDotsIn, restoreDotsIn]
      | cons next rest =>
        by_cases dotted : next = '.'
        · subst dotted
          simp [escapeDotsIn_dot, restoreDotsIn]
        rw [escapeDotsIn_other dotted]
        by_cases doubled : next = '\\'
        · subst doubled
          simp [restoreDotsIn]
        · simp [restoreDotsIn_backslash doubled, dotted, doubled]
    · simp [restoreDotsIn_plain backslash, backslash]

theorem restoreDots_escapeDots_iff (name : String) :
    restoreDots (escapeDots name) = name ↔ LoneBackslashes name.toList := by
  rw [← String.toList_inj, toList_restoreDots, toList_escapeDots, restoreDotsIn_escapeDotsIn_iff]

/-- A name without backslashes is read as it is written. -/
theorem restoreDots_escapeDots {name : String} (plain : '\\' ∉ name.toList) :
    restoreDots (escapeDots name) = name :=
  (restoreDots_escapeDots_iff name).mpr
    ⟨fun pair => plain (pair.subset List.mem_cons_self),
      fun pair => plain (pair.subset List.mem_cons_self)⟩

/-- A text without dots is written as it is read: the pairs of backslashes that are read as dots are
written again, and the others were left as they are. -/
theorem escapeDots_restoreDots {text : String} (undotted : '.' ∉ text.toList) :
    escapeDots (restoreDots text) = text := by
  rw [← String.toList_inj, toList_escapeDots, toList_restoreDots]
  generalize text.toList = cs at undotted
  fun_induction restoreDotsIn cs with
  | case1 rest ih =>
    have later : '.' ∉ rest :=
      fun dotted => undotted (List.mem_cons_of_mem _ (List.mem_cons_of_mem _ dotted))
    rw [escapeDotsIn_dot, ih later]
  | case2 c rest _ ih =>
    obtain ⟨first, later⟩ := not_or.mp (mt List.mem_cons.mpr undotted)
    rw [escapeDotsIn_other (Ne.symm first), ih later]
  | case3 => rfl

/-- A name that was written is written in the same way after it was read, whatever became of it. -/
theorem escapeDots_restoreDots_escapeDots (name : String) :
    escapeDots (restoreDots (escapeDots name)) = escapeDots name :=
  escapeDots_restoreDots (dot_not_mem_escapeDots name)

/-- A name is read as it is written exactly if it has neither a pair of backslashes nor a backslash
before a dot, and a text is written as it is read if it has no dot. No written name has a dot, and
what is read of one is a name that is written alike, so its fields stay the same. -/
theorem dots_undone_exactly :
    (∀ name : String, restoreDots (escapeDots name) = name ↔
      ¬ ['\\', '\\'] <:+: name.toList ∧ ¬ ['\\', '.'] <:+: name.toList) ∧
    (∀ text : String, '.' ∉ text.toList → escapeDots (restoreDots text) = text) ∧
    (∀ name : String, '.' ∉ (escapeDots name).toList) ∧
    ∀ name : String, escapeDots (restoreDots (escapeDots name)) = escapeDots name ∧
      ∀ scope kind, FieldName.of scope (restoreDots (escapeDots name)) kind =
        FieldName.of scope name kind := by
  refine ⟨restoreDots_escapeDots_iff, ?_, dot_not_mem_escapeDots, ?_⟩
  · intro text undotted
    exact escapeDots_restoreDots undotted
  · intro name
    have alike := escapeDots_restoreDots_escapeDots name
    refine ⟨alike, ?_⟩
    intro scope kind
    rw [FieldName.of, FieldName.of, alike]

/-- Three backslashes, which are read as a dot and a backslash, and written as they were. -/
theorem dots_undone_exactly_three :
    '.' ∉ "os\\\\\\name".toList ∧ restoreDots "os\\\\\\name" = "os.\\name" ∧
      escapeDots (restoreDots "os\\\\\\name") = "os\\\\\\name" := by
  have undotted : '.' ∉ "os\\\\\\name".toList := by decide
  exact ⟨undotted, by decide, dots_undone_exactly.2.1 _ undotted⟩

end FleetSearch.FieldName
