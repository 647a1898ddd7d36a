import FleetSearch.Proofs.Paths

/-! # Faulty terms

A term that is faulty in a field is told of at the end of one path: the indices that lead down to it,
and then the field. The way down stops where a term has too many or too deep ones below it, and from
there on nothing is told. -/
namespace FleetSearch

/-- The path to a field of the term that some indices lead to. -/
def fieldPath : List Nat → String → List String
  | [], field => [field]
  | i :: indices, field => "aggregations" :: toString i :: fieldPath indices field

theorem fieldPath_ne_nil (indices : List Nat) (field : String) : fieldPath indices field ≠ [] := by
  cases indices <;> exact List.cons_ne_nil _ _

/-- No two terms share a path, and no two fields of a term. -/
theorem fieldPath_inj {indices others : List Nat} {field other : String}
    (same : fieldPath indices field = fieldPath others other) : indices = others ∧ field = other := by
  induction indices generalizing others with
  | nil =>
    cases others with
    | nil => exact ⟨rfl, (List.cons.inj same).1⟩
    | cons j others => cases (List.cons.inj same).2
  | cons i indices ih =>
    cases others with
    | nil => cases (List.cons.inj same).2
    | cons j others =>
      obtain ⟨index, rest⟩ := List.cons.inj (List.cons.inj same).2
      obtain ⟨rfl, rfl⟩ := ih rest
      obtain rfl := Violations.index_inj index
      exact ⟨rfl, rfl⟩

namespace Term

variable {σ : Type}

/-- The terms below this one are neither too many nor nested too deep. -/
structure Open (t : Term σ) : Prop where
  few : t.children.length ≤ 100
  shallow : walkDepth t.children ≤ 5

/-- A term that some indices lead to, each taken below a term that is open. -/
inductive Reached : Term σ → List Nat → Term σ → Prop where
  | here (t : Term σ) : Reached t [] t
  | inside {t child n : Term σ} {i : Nat} {indices : List Nat} : t.Open →
    t.children[i]? = some child → Reached child indices n → Reached t (i :: indices) n

theorem Reached.unique {t n m : Term σ} {indices : List Nat} (first : t.Reached indices n)
    (second : t.Reached indices m) : n = m := by
  induction first with
  | here t =>
    cases second
    rfl
  | inside _ placed _ ih =>
    cases second with
    | inside _ placed' second =>
      rw [placed] at placed'
      cases placed'
      exact ih second

variable [Scoping σ]

/-- A field of a term fails, with what its first rule to fail says. -/
inductive Faulty (t : Term σ) : String → String → Prop where
  | nameless : t.name = "" → Faulty t "name" "cannot be blank"
  | subjectless : t.subject.name = "" → Faulty t "attribute" "cannot be blank"
  | scopeless : Scoping.carried σ = true → Scoping.text t.subject.scope = "" →
    Faulty t "scope" "cannot be blank"
  | negative : t.limit < 0 → Faulty t "limit" "must be no less than 0"
  | many : 100 < t.children.length →
    Faulty t "aggregations" "the length must be no more than 100"
  | deep : t.children.length ≤ 100 → 5 < walkDepth t.children →
    Faulty t "aggregations" "too many nested aggregations, limit is 5"

theorem faulty_aggregations_iff (t : Term σ) (text : String) : t.Faulty "aggregations" text ↔
    (100 < t.children.length ∧ text = "the length must be no more than 100") ∨
    (t.children.length ≤ 100 ∧ 5 < walkDepth t.children ∧
      text = "too many nested aggregations, limit is 5") := by
  constructor
  · -- A case split cannot tell two literals apart, so the field is made a variable first.
    generalize same : "aggregations" = field
    intro faulty
    cases faulty with
    | many h => exact .inl ⟨h, rfl⟩
    | deep few h => exact .inr ⟨few, h, rfl⟩
    | _ => exact absurd same (by decide)
  · rintro (⟨h, rfl⟩ | ⟨few, h, rfl⟩)
    · exact .many h
    · exact .deep few h

/-- A field of a term in a tree fails. -/
def Fails (t : Term σ) (indices : List Nat) (field text : String) : Prop :=
  ∃ n, t.Reached indices n ∧ n.Faulty field text

theorem Reached.fails_iff {t n : Term σ} {indices : List Nat} (reached : t.Reached indices n)
    (field text : String) : t.Fails indices field text ↔ n.Faulty field text := by
  constructor
  · rintro ⟨m, reached', faulty⟩
    rwa [reached.unique reached']
  · intro faulty
    exact ⟨n, reached, faulty⟩

end Term

/-! ## Rules that fail -/

namespace Rule

theorem required_eq_some_iff (value text : String) :
    required value = some text ↔ value = "" ∧ text = "cannot be blank" := by
  simp [required, failing_eq_some_iff, blank]

theorem atLeast_zero_eq_some_iff (value : Int) (text : String) :
    atLeast value 0 = some text ↔ value < 0 ∧ text = "must be no less than 0" := by
  rw [atLeast, failing_eq_some_iff, decide_eq_true_iff]
  rfl

theorem length_eq_some_iff (count least most : Nat) (text : String) :
    length count least most = some text ↔ ¬ (least ≤ count ∧ count ≤ most) ∧
      text = if least = 0 then "the length must be no more than " ++ toString most
        else "the length must be between " ++ toString least ++ " and " ++ toString most := by
  rw [length, failing_eq_some_iff]
  simp only [Bool.not_eq_true', ← Bool.not_eq_true, Bool.and_eq_true, decide_eq_true_eq]

end Rule

namespace Violations

theorem findSome?_singleton_eq_some_iff (rule : Option String) (message : String) :
    [rule].findSome? id = some message ↔ rule = some message := by
  cases rule <;> simp

theorem get?_required_eq_some_iff {violations : Violations} {field : String}
    (fresh : violations.get? field = none) (value name : String) (violation : Violation) :
    (violations.check field [Rule.required value]).get? name = some violation ↔
      violations.get? name = some violation ∨
        name = field ∧ value = "" ∧ violation = .message "cannot be blank" := by
  rw [get?_check_eq_some_iff fresh]
  simp only [findSome?_singleton_eq_some_iff, Rule.required_eq_some_iff, and_assoc,
    exists_and_left, exists_eq_left]

end Violations

theorem Scoping.get?_check_eq_some_iff {σ : Type} [Scoping σ] {violations : Violations}
    (fresh : violations.get? "scope" = none) (scope : σ) (name : String) (violation : Violation) :
    (Scoping.check violations scope).get? name = some violation ↔
      violations.get? name = some violation ∨ name = "scope" ∧ Scoping.carried σ = true ∧
        Scoping.text scope = "" ∧ violation = .message "cannot be blank" := by
  unfold Scoping.check
  split
  · rename_i carried
    simp [Violations.get?_required_eq_some_iff fresh, carried]
  · rename_i flat
    simp [flat]

theorem Attribute.get?_check_eq_some_iff {σ : Type} [Scoping σ] {violations : Violations}
    (scope : violations.get? "scope" = none) (name : violations.get? "attribute" = none)
    (a : Attribute σ) (field : String) (violation : Violation) :
    (Attribute.check violations a).get? field = some violation ↔
      violations.get? field = some violation ∨
        (field = "scope" ∧ Scoping.carried σ = true ∧ Scoping.text a.scope = "" ∧
          violation = .message "cannot be blank") ∨
        (field = "attribute" ∧ a.name = "" ∧ violation = .message "cannot be blank") := by
  have fresh : (Scoping.check violations a.scope).get? "attribute" = none := by
    rw [Scoping.get?_check_other _ (by decide), name]
  rw [Attribute.check, Violations.get?_required_eq_some_iff fresh,
    Scoping.get?_check_eq_some_iff scope, or_assoc]

namespace Term

variable {σ : Type}

theorem nestingError?_eq_some_iff (terms : List (Term σ)) (text : String) :
    nestingError? terms mostLevels = some text ↔
      5 < walkDepth terms ∧ text = "too many nested aggregations, limit is 5" := by
  constructor
  · intro refused
    have long : ¬ walkDepth terms ≤ 5 := by
      rw [← walk_fits_iff, refused]
      exact nofun
    exact ⟨Nat.lt_of_not_le long, nestingError?_eq_some refused⟩
  · rintro ⟨long, rfl⟩
    cases walked : nestingError? terms mostLevels with
    | none =>
      have short := (walk_fits_iff terms).mp walked
      omega
    | some text =>
      rw [nestingError?_eq_some walked]
      rfl

/-- The rules for the terms below a term. -/
def rulesBelow (t : Term σ) : List (Option String) :=
  [Rule.length t.children.length 0 mostTerms, nestingError? t.children mostLevels]

theorem rulesBelow_eq_none_iff (t : Term σ) : t.rulesBelow.findSome? id = none ↔ t.Open := by
  rw [List.findSome?_eq_none_iff, rulesBelow, List.forall_mem_cons, List.forall_mem_singleton]
  simp only [id_eq, Rule.length_eq_none_iff, walk_fits_iff, Nat.zero_le, true_and]
  constructor
  · rintro ⟨few, shallow⟩
    exact ⟨few, shallow⟩
  · intro opened
    exact ⟨opened.few, opened.shallow⟩

variable [Scoping σ]

/-- The terms below a term are counted first, and walked if they are few. -/
theorem rulesBelow_eq_some_iff (t : Term σ) (text : String) :
    t.rulesBelow.findSome? id = some text ↔ t.Faulty "aggregations" text := by
  rw [faulty_aggregations_iff, rulesBelow, List.findSome?_cons]
  cases counted : Rule.length t.children.length 0 mostTerms with
  | some message =>
    obtain ⟨unfit, rfl⟩ := (Rule.length_eq_some_iff _ _ _ _).mp counted
    have notFew : ¬ t.children.length ≤ 100 := fun few => unfit ⟨Nat.zero_le _, few⟩
    have many := Nat.lt_of_not_le notFew
    constructor
    · rintro ⟨⟩
      exact .inl ⟨many, rfl⟩
    · rintro (⟨_, rfl⟩ | ⟨few, _⟩)
      · rfl
      · exact absurd few notFew
  | none =>
    have few := ((Rule.length_eq_none_iff _ _ _).mp counted).2
    rw [id_eq, Violations.findSome?_singleton_eq_some_iff, nestingError?_eq_some_iff]
    constructor
    · intro long
      exact .inr ⟨few, long⟩
    · rintro (⟨many, _⟩ | ⟨_, long⟩)
      · exact absurd few (Nat.not_le_of_lt many)
      · exact long

/-! ## One term -/

theorem fails_nil_iff (t : Term σ) (field text : String) :
    t.Fails [] field text ↔ t.Faulty field text := (Reached.here t).fails_iff field text

theorem fails_cons_iff (t : Term σ) (i : Nat) (indices : List Nat) (field text : String) :
    t.Fails (i :: indices) field text ↔
      t.Open ∧ ∃ child, t.children[i]? = some child ∧ child.Fails indices field text := by
  constructor
  · rintro ⟨n, reached, faulty⟩
    cases reached with
    | inside opened placed reached => exact ⟨opened, _, placed, n, reached, faulty⟩
  · rintro ⟨opened, child, placed, n, reached, faulty⟩
    exact ⟨n, .inside opened placed reached, faulty⟩

/-- What is wrong with a term by itself. -/
def ownViolations (t : Term σ) : Violations :=
  Violations.check (Attribute.check (Violations.check [] "name" [Rule.required t.name]) t.subject)
    "limit" [Rule.atLeast t.limit 0]

theorem violations_eq_checkList (t : Term σ) : t.violations =
    t.ownViolations.checkList "aggregations" t.rulesBelow (Violations.each violations t.children) := by
  obtain ⟨name, subject, limit, children⟩ := t
  cases children with
  | nil => rfl
  | cons child rest =>
    rw [violations, if_neg (by simp), violationsFrom_eq]
    rfl

/-- By itself a term is faulty in any field but that of the terms below it. -/
theorem get?_ownViolations_eq_some_iff (t : Term σ) (field : String) (violation : Violation) :
    t.ownViolations.get? field = some violation ↔ field ≠ "aggregations" ∧
      ∃ text, t.Faulty field text ∧ violation = .message text := by
  let named := Violations.check [] "name" [Rule.required t.name]
  have unnamed {wanted : String} (apart : wanted ≠ "name") : named.get? wanted = none :=
    Violations.get?_check_other _ apart _
  have unlimited : (Attribute.check named t.subject).get? "limit" = none := by
    rw [Attribute.check, Violations.get?_check_other _ (by decide),
      Scoping.get?_check_other _ (by decide), unnamed (by decide)]
  rw [ownViolations, Violations.get?_check_eq_some_iff unlimited,
    Attribute.get?_check_eq_some_iff (unnamed (by decide)) (unnamed (by decide)),
    Violations.get?_required_eq_some_iff rfl]
  simp only [Violations.findSome?_singleton_eq_some_iff, Rule.atLeast_zero_eq_some_iff]
  constructor
  · rintro (((⟨⟨⟩⟩ | ⟨rfl, h, rfl⟩) | ⟨rfl, carried, h, rfl⟩ | ⟨rfl, h, rfl⟩) |
      ⟨rfl, _, ⟨h, rfl⟩, rfl⟩)
    · exact ⟨by decide, _, .nameless h, rfl⟩
    · exact ⟨by decide, _, .scopeless carried h, rfl⟩
    · exact ⟨by decide, _, .subjectless h, rfl⟩
    · exact ⟨by decide, _, .negative h, rfl⟩
  · rintro ⟨own, text, faulty, rfl⟩
    cases faulty with
    | nameless h => exact .inl (.inl (.inr ⟨rfl, h, rfl⟩))
    | scopeless carried h => exact .inl (.inr (.inl ⟨rfl, carried, h, rfl⟩))
    | subjectless h => exact .inl (.inr (.inr ⟨rfl, h, rfl⟩))
    | negative h => exact .inr ⟨rfl, _, ⟨h, rfl⟩, rfl⟩
    | many _ => exact absurd rfl own
    | deep _ _ => exact absurd rfl own

theorem at?_ownViolations_eq_message_iff (t : Term σ) (field : String) (path : List String)
    (text : String) : t.ownViolations.at? (field :: path) = some (.message text) ↔
      field ≠ "aggregations" ∧ t.Faulty field text ∧ path = [] := by
  rw [Violations.at?_cons_eq_message_iff, get?_ownViolations_eq_some_iff]
  constructor
  · rintro (⟨⟨own, _, faulty, same⟩, ends⟩ | ⟨inner, told, _⟩)
    · cases same
      exact ⟨own, faulty, ends⟩
    · obtain ⟨_, _, _, same⟩ := (t.get?_ownViolations_eq_some_iff field _).mp told
      cases same
  · rintro ⟨own, faulty, ends⟩
    exact .inl ⟨⟨own, text, faulty, rfl⟩, ends⟩

/-- One level: a path ends in a faulty field, or goes on in a child of an open term. -/
theorem at?_violations_cons_iff (t : Term σ) (field : String) (path : List String) (text : String) :
    t.violations.at? (field :: path) = some (.message text) ↔
      (t.Faulty field text ∧ path = []) ∨
        field = "aggregations" ∧ t.Open ∧ ∃ (i : Nat) (child : Term σ) (rest : List String),
          t.children[i]? = some child ∧ path = toString i :: rest ∧
            child.violations.at? rest = some (.message text) := by
  have fresh : t.ownViolations.get? "aggregations" = none := by
    rw [Option.eq_none_iff_forall_ne_some]
    intro violation told
    exact ((t.get?_ownViolations_eq_some_iff _ _).mp told).1 rfl
  rw [violations_eq_checkList, Violations.at?_checkList_eq_message_iff fresh,
    at?_ownViolations_eq_message_iff, rulesBelow_eq_some_iff, rulesBelow_eq_none_iff,
    Violations.at?_each_eq_message_iff]
  by_cases same : field = "aggregations"
  · subst same
    simp
  · simp [same]

/-- From one level to the next, down the whole tree. -/
theorem at?_violations_eq_message_iff (t : Term σ) (path : List String) (text : String) :
    t.violations.at? path = some (.message text) ↔
      ∃ indices field, t.Fails indices field text ∧ path = fieldPath indices field := by
  induction t using Term.induction generalizing path with
  | node name subject limit children ih =>
    cases path with
    | nil =>
      have nowhere := Violations.at?_nil_ne_message (mk name subject limit children).violations text
      constructor
      · intro found
        exact absurd found nowhere
      · rintro ⟨indices, field, _, same⟩
        exact absurd same.symm (fieldPath_ne_nil indices field)
    | cons field path =>
      -- Two steps of a path lead to a child, so the induction is on the tree and not on the path.
      rw [at?_violations_cons_iff]
      constructor
      · rintro (⟨faulty, rfl⟩ | ⟨rfl, opened, i, child, rest, placed, rfl, found⟩)
        · exact ⟨[], field, (fails_nil_iff _ _ _).mpr faulty, rfl⟩
        · have member := List.mem_of_getElem? placed
          obtain ⟨indices, field, fails, rfl⟩ := (ih child member rest).mp found
          exact ⟨i :: indices, field, (fails_cons_iff _ _ _ _ _).mpr ⟨opened, child, placed, fails⟩,
            rfl⟩
      · rintro ⟨indices, other, fails, same⟩
        cases indices with
        | nil =>
          cases same
          exact .inl ⟨(fails_nil_iff _ _ _).mp fails, rfl⟩
        | cons i indices =>
          cases same
          obtain ⟨opened, child, placed, fails⟩ := (fails_cons_iff _ _ _ _ _).mp fails
          have found := (ih child (List.mem_of_getElem? placed) _).mpr ⟨indices, other, fails, rfl⟩
          exact .inr ⟨rfl, opened, i, child, _, placed, rfl, found⟩

end Term

end FleetSearch
