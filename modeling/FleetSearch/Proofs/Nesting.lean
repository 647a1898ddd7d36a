import FleetSearch.Proofs.Acceptance

/-! # Nesting

The walk through nested terms follows the first one that has children, so below each term it
measures one branch. A branch that leaves the walk at a term is measured anew from that term on: each
such turn lets it grow by what is left of a fresh budget, and no bound holds of all branches. -/
namespace FleetSearch

namespace Term

variable {σ : Type}

/-- A term stands somewhere in the trees under some terms. -/
inductive Within (t : Term σ) : List (Term σ) → Prop where
  | here {terms : List (Term σ)} : t ∈ terms → Within t terms
  | inside {terms : List (Term σ)} {parent : Term σ} :
    parent ∈ terms → Within t parent.children → Within t terms

/-- The term that the walk follows. -/
def walked? (terms : List (Term σ)) : Option (Term σ) :=
  terms.find? fun term => !term.children.isEmpty

/-- A branch down from some terms, with the number of its levels and the number of times that it
goes on below another term than the walk does. -/
inductive Branch : List (Term σ) → Nat → Nat → Prop where
  | stop (terms : List (Term σ)) : Branch terms 0 0
  | last {terms : List (Term σ)} {t : Term σ} : t ∈ terms → Branch terms 1 0
  | walk {terms : List (Term σ)} {t : Term σ} {n k : Nat} :
    walked? terms = some t → Branch t.children (n + 1) k → Branch terms (n + 2) k
  | turn {terms : List (Term σ)} {t : Term σ} {n k : Nat} :
    t ∈ terms → walked? terms ≠ some t → Branch t.children (n + 1) k → Branch terms (n + 2) (k + 1)

/-- Below a term a branch grows with its turns only. -/
def Bounded (t : Term σ) : Prop :=
  ∀ n k, Branch t.children n k → n ≤ mostLevels + (mostLevels - 1) * k

/-! ## The walk -/

theorem nestingError?_eq_none_iff (terms : List (Term σ)) (budget : Nat) :
    nestingError? terms budget = none ↔
      0 < budget ∧ ∀ t, walked? terms = some t → nestingError? t.children (budget - 1) = none := by
  cases budget with
  | zero => simp [nestingError?]
  | succ budget =>
    simp only [nestingError?, walked?]
    cases terms.find? fun term => !term.children.isEmpty <;> simp

theorem nestingError?_eq_some {terms : List (Term σ)} {budget : Nat} {text : String}
    (refused : nestingError? terms budget = some text) : text = tooManyLevels := by
  induction budget generalizing terms with
  | zero =>
    cases refused
    rfl
  | succ budget ih =>
    rw [nestingError?] at refused
    split at refused
    · exact ih refused
    · cases refused

theorem nestingError?_mono {terms : List (Term σ)} {budget more : Nat} (le : budget ≤ more)
    (walked : nestingError? terms budget = none) : nestingError? terms more = none := by
  induction budget generalizing terms more with
  | zero => cases walked
  | succ budget ih =>
    obtain ⟨_, below⟩ := (nestingError?_eq_none_iff terms (budget + 1)).mp walked
    refine (nestingError?_eq_none_iff terms more).mpr ⟨by omega, ?_⟩
    intro t first
    exact ih (by omega) (below t first)

theorem Branch.ne_nil {terms : List (Term σ)} {n k : Nat} (branch : Branch terms (n + 1) k) :
    terms ≠ [] := by
  rintro rfl
  cases branch with
  | last member => cases member
  | walk first _ => cases first
  | turn member _ _ => cases member

/-- Where one of some terms has children, the walk goes on. -/
theorem exists_walked {terms : List (Term σ)} {t : Term σ} (member : t ∈ terms)
    (parent : t.children ≠ []) : ∃ first, walked? terms = some first := by
  cases found : walked? terms with
  | some first => exact ⟨first, rfl⟩
  | none =>
    have childless := List.find?_eq_none.mp found t member
    simp [parent] at childless

section

variable [Scoping σ]

theorem accepted_children {t : Term σ} (accepted : t.violations = []) :
    ∀ child ∈ t.children, child.violations = [] :=
  ((violations_eq_nil_iff t).mp accepted).2.2.2

/-- Below an accepted term the walk has a budget of its own. -/
theorem accepted_walk {t : Term σ} (accepted : t.violations = []) :
    nestingError? t.children mostLevels = none :=
  ((violations_eq_nil_iff t).mp accepted).2.2.1

theorem Within.accepted {t : Term σ} {terms : List (Term σ)} (within : t.Within terms)
    (accepted : ∀ u ∈ terms, u.violations = []) : t.violations = [] := by
  induction within with
  | here member => exact accepted t member
  | inside member _ ih => exact ih (accepted_children (accepted _ member))

/-- The budget of the walk bounds a branch up to its first turn. From there on the branch has the
fresh budget of the term at which it turned, but the walk went at least one level further there. -/
theorem Branch.levels_le {terms : List (Term σ)} {n k budget : Nat} (branch : Branch terms n k)
    (walked : nestingError? terms budget = none) (accepted : ∀ t ∈ terms, t.violations = []) :
    n ≤ budget + (mostLevels - 1) * k := by
  induction branch generalizing budget with
  | stop => exact Nat.zero_le _
  | last _ =>
    have := ((nestingError?_eq_none_iff _ budget).mp walked).1
    omega
  | walk first _ ih =>
    obtain ⟨positive, below⟩ := (nestingError?_eq_none_iff _ budget).mp walked
    have parent := accepted _ (List.mem_of_find?_eq_some first)
    have := ih (below _ first) (accepted_children parent)
    omega
  | turn member _ branch ih =>
    -- The walk goes on below another term, so it has a level left here besides its last.
    obtain ⟨first, found⟩ := exists_walked member branch.ne_nil
    obtain ⟨_, below⟩ := (nestingError?_eq_none_iff _ budget).mp walked
    have further := ((nestingError?_eq_none_iff _ _).mp (below first found)).1
    have parent := accepted _ member
    have := ih (accepted_walk parent) (accepted_children parent)
    simp only [mostLevels] at this ⊢
    omega

/-- Every term among accepted ones is bounded. -/
theorem Within.bounded {t : Term σ} {terms : List (Term σ)} (within : t.Within terms)
    (accepted : ∀ u ∈ terms, u.violations = []) : t.Bounded := by
  have own := within.accepted accepted
  intro n k branch
  exact branch.levels_le (accepted_walk own) (accepted_children own)

end

/-! ## The longest branches -/

/-- Levels of one term each above some terms. -/
def tower (subject : Attribute σ) (terms : List (Term σ)) : Nat → List (Term σ)
  | 0 => terms
  | n + 1 => [mk "tower" subject 0 (tower subject terms n)]

def leaf (subject : Attribute σ) : Term σ := mk "leaf" subject 0 []

def twig (subject : Attribute σ) : Term σ := mk "twig" subject 0 [leaf subject]

/-- A term above a branch that turns a number of times, each time as late as it can. -/
def tallest (subject : Attribute σ) : Nat → Term σ
  | 0 => mk "trunk" subject 0 (tower subject [leaf subject] (mostLevels - 1))
  | k + 1 => mk "trunk" subject 0 (tower subject [twig subject, tallest subject k] (mostLevels - 2))

theorem Branch.tower {terms : List (Term σ)} {m k : Nat} (branch : Branch terms (m + 1) k)
    (subject : Attribute σ) (n : Nat) :
    Branch (tower subject terms n) (n + m + 1) k := by
  induction n with
  | zero => rwa [Nat.zero_add]
  | succ n ih =>
    have first : walked? (Term.tower subject terms (n + 1)) =
        some (mk "tower" subject 0 (Term.tower subject terms n)) := by
      have := ih.ne_nil
      simp [walked?, Term.tower, children, this]
    have longer := Branch.walk first ih
    rwa [show n + m + 2 = n + 1 + m + 1 by omega] at longer

theorem twig_ne_tallest (subject : Attribute σ) (k : Nat) : twig subject ≠ tallest subject k := by
  intro same
  have names := congrArg name same
  cases k <;> simp [twig, tallest, name] at names

theorem walked?_twig (subject : Attribute σ) (terms : List (Term σ)) :
    walked? (twig subject :: terms) = some (twig subject) := rfl

theorem branch_tallest (subject : Attribute σ) (k : Nat) :
    Branch (tallest subject k).children (mostLevels + (mostLevels - 1) * k) k := by
  induction k with
  | zero =>
    have ends : Branch [leaf subject] (0 + 1) 0 := .last List.mem_cons_self
    exact ends.tower subject (mostLevels - 1)
  | succ k ih =>
    have apart : walked? [twig subject, tallest subject k] ≠ some (tallest subject k) := by
      rw [walked?_twig]
      intro same
      exact twig_ne_tallest subject k (Option.some.inj same)
    simp only [mostLevels] at ih ⊢
    rw [show 5 + (5 - 1) * k = 4 + 4 * k + 1 by omega] at ih
    have turned := Branch.turn (List.mem_cons_of_mem _ List.mem_cons_self) apart ih
    have whole := turned.tower subject (mostLevels - 2)
    rwa [show mostLevels - 2 + (4 + 4 * k + 1) + 1 = 5 + (5 - 1) * (k + 1) by
      simp only [mostLevels]; omega] at whole

theorem nestingError?_tower {subject : Attribute σ} {terms : List (Term σ)} {budget : Nat}
    (walked : nestingError? terms budget = none) (n : Nat) :
    nestingError? (tower subject terms n) (n + budget) = none := by
  induction n with
  | zero => rwa [Nat.zero_add]
  | succ n ih =>
    refine (nestingError?_eq_none_iff _ _).mpr ⟨by omega, ?_⟩
    intro t first
    obtain rfl := List.mem_singleton.mp (List.mem_of_find?_eq_some first)
    rwa [show n + 1 + budget - 1 = n + budget by omega]

theorem length_tower {subject : Attribute σ} {terms : List (Term σ)}
    (few : terms.length ≤ mostTerms) (n : Nat) : (tower subject terms n).length ≤ mostTerms := by
  cases n with
  | zero => exact few
  | succ n => exact (by decide : 1 ≤ mostTerms)

section

variable [Scoping σ] {subject : Attribute σ}

theorem accepted_mk {name : String} {children : List (Term σ)} (named : name ≠ "")
    (sound : subject.violations = []) (few : children.length ≤ mostTerms)
    (walked : nestingError? children mostLevels = none)
    (inner : ∀ child ∈ children, child.violations = []) :
    (mk name subject 0 children).violations = [] :=
  (violations_eq_nil_iff _).mpr ⟨⟨named, sound, Int.le_refl 0⟩, few, walked, inner⟩

theorem accepted_tower (sound : subject.violations = []) {terms : List (Term σ)} {budget : Nat}
    (few : terms.length ≤ mostTerms) (walked : nestingError? terms budget = none)
    (accepted : ∀ t ∈ terms, t.violations = []) (n : Nat) (low : n + budget ≤ mostLevels) :
    ∀ t ∈ tower subject terms n, t.violations = [] := by
  induction n with
  | zero => exact accepted
  | succ n ih =>
    intro t member
    obtain rfl := List.mem_singleton.mp member
    have fits : n + budget ≤ mostLevels := by omega
    exact accepted_mk (by decide) sound (length_tower few n)
      (nestingError?_mono fits (nestingError?_tower walked n)) (ih fits)

/-- A tower under a name is accepted as long as its levels and the walk below fit the budget. -/
theorem accepted_trunk (sound : subject.violations = []) {terms : List (Term σ)} {budget n : Nat}
    (few : terms.length ≤ mostTerms) (walked : nestingError? terms budget = none)
    (accepted : ∀ t ∈ terms, t.violations = []) (low : n + budget ≤ mostLevels) :
    (mk "trunk" subject 0 (tower subject terms n)).violations = [] :=
  accepted_mk (by decide) sound (length_tower few n)
    (nestingError?_mono low (nestingError?_tower walked n))
    (accepted_tower sound few walked accepted n low)

theorem accepted_tallest (subject : Attribute σ) (sound : subject.violations = []) (k : Nat) :
    (tallest subject k).violations = [] := by
  have leaf_accepted : (leaf subject).violations = [] :=
    accepted_mk (by decide) sound (Nat.zero_le _) rfl (by simp)
  have twig_accepted : (twig subject).violations = [] :=
    accepted_mk (by decide) sound (by simp [mostTerms]) rfl (by simpa using leaf_accepted)
  induction k with
  | zero =>
    have walked : nestingError? [leaf subject] 1 = none := rfl
    exact accepted_trunk sound (by simp [mostTerms]) walked (by simpa using leaf_accepted) (by decide)
  | succ k ih =>
    have walked : nestingError? [twig subject, tallest subject k] 2 = none := rfl
    exact accepted_trunk sound (by simp [mostTerms]) walked (by simp [twig_accepted, ih]) (by decide)

end

end Term

/-! ## Summaries -/

theorem DeviceSummary.terms_accepted {s : DeviceSummary} (accepted : s.violations = []) :
    ∀ t ∈ s.aggregations, t.violations = [] := by
  obtain ⟨top, _, _⟩ := s.violations_eq_nil_iff.mp accepted
  exact ((Term.checkTop_eq_nil_iff _).mp top).2.2

theorem DeploymentSummary.terms_accepted {s : DeploymentSummary} (accepted : s.violations = []) :
    ∀ t ∈ s.aggregations, t.violations = [] := by
  obtain ⟨top, _⟩ := s.violations_eq_nil_iff.mp accepted
  exact ((Term.checkTop_eq_nil_iff _).mp top).2.2

theorem Term.checkTop_singleton {σ : Type} [Scoping σ] {t : Term σ} (accepted : t.violations = []) :
    Term.checkTop [] [t] = [] := by
  apply (Term.checkTop_eq_nil_iff _).mpr
  refine ⟨List.cons_ne_nil _ _, by simp [Term.mostTerms], ?_⟩
  simpa using accepted

def DeviceSummary.ofTerm (t : Term Scope) : DeviceSummary := ⟨[t], [], .none⟩

def DeploymentSummary.ofTerm (t : Term Flat) : DeploymentSummary := ⟨[t], []⟩

theorem DeviceSummary.ofTerm_accepted {t : Term Scope} (accepted : t.violations = []) :
    (ofTerm t).violations = [] := by
  apply (violations_eq_nil_iff _).mpr
  refine ⟨Term.checkTop_singleton accepted, rfl, ?_⟩
  simp [ofTerm]

theorem DeploymentSummary.ofTerm_accepted {t : Term Flat} (accepted : t.violations = []) :
    (ofTerm t).violations = [] := by
  apply (violations_eq_nil_iff _).mpr
  refine ⟨Term.checkTop_singleton accepted, ?_⟩
  simp [ofTerm]

/-- In an accepted summary a branch below any term has at most five levels where the walk follows
it throughout, and at most four more for each of its turns. Accepted summaries attain that for every
number of turns. -/
theorem depth_bounded_by_turns :
    (∀ s : DeviceSummary, s.violations = [] → ∀ t : Term Scope, t.Within s.aggregations →
      t.Bounded) ∧
    (∀ s : DeploymentSummary, s.violations = [] → ∀ t : Term Flat, t.Within s.aggregations →
      t.Bounded) ∧
    ∀ turns,
      (∃ s : DeviceSummary, s.violations = [] ∧ ∃ t ∈ s.aggregations,
        Term.Branch t.children (5 + 4 * turns) turns) ∧
      ∃ s : DeploymentSummary, s.violations = [] ∧ ∃ t ∈ s.aggregations,
        Term.Branch t.children (5 + 4 * turns) turns := by
  refine ⟨?_, ?_, ?_⟩
  · intro s accepted t within
    exact within.bounded (DeviceSummary.terms_accepted accepted)
  · intro s accepted t within
    exact within.bounded (DeploymentSummary.terms_accepted accepted)
  · intro turns
    constructor
    · have accepted := Term.accepted_tallest ⟨Scope.mk "system", "group"⟩ rfl turns
      exact ⟨.ofTerm _, DeviceSummary.ofTerm_accepted accepted, _, List.mem_cons_self,
        Term.branch_tallest _ turns⟩
    · have accepted := Term.accepted_tallest ⟨Flat.flat, "status"⟩ rfl turns
      exact ⟨.ofTerm _, DeploymentSummary.ofTerm_accepted accepted, _, List.mem_cons_self,
        Term.branch_tallest _ turns⟩

/-- A term whose first child is shallow and whose second one is as deep as a term may be. -/
def Term.lopsided : Term Scope :=
  let subject : Attribute Scope := ⟨⟨"inventory"⟩, "status"⟩
  mk "root" subject 0 [twig subject, tallest subject 0]

/-- Six levels below the root of an accepted summary. -/
theorem depth_beyond_limit :
    (DeviceSummary.ofTerm .lopsided).violations = [] ∧
      ∃ t : Term Scope, t.Within (DeviceSummary.ofTerm .lopsided).aggregations ∧
        ∃ levels turns, Term.Branch t.children levels turns ∧ Term.mostLevels < levels := by
  let subject : Attribute Scope := ⟨⟨"inventory"⟩, "status"⟩
  have apart : Term.walked? [Term.twig subject, Term.tallest subject 0] ≠
      some (Term.tallest subject 0) := by
    intro same
    exact Term.twig_ne_tallest subject 0 (Option.some.inj same)
  have turned : Term.Branch Term.lopsided.children 6 1 :=
    .turn (List.mem_cons_of_mem _ List.mem_cons_self) apart (Term.branch_tallest subject 0)
  exact ⟨rfl, _, .here (List.mem_singleton_self _), 6, 1, turned, by decide⟩

theorem depth_bounded_by_turns_lopsided :
    ((DeviceSummary.ofTerm .lopsided).violations = [] ∧
      Term.lopsided.Within (DeviceSummary.ofTerm .lopsided).aggregations ∧
      Term.lopsided.Bounded) ∧
    let tall := Term.tallest ⟨Flat.flat, "status"⟩ 1
    (DeploymentSummary.ofTerm tall).violations = [] ∧
      tall.Within (DeploymentSummary.ofTerm tall).aggregations ∧ tall.Bounded := by
  constructor
  · have accepted : (DeviceSummary.ofTerm .lopsided).violations = [] := rfl
    have within := Term.Within.here (List.mem_singleton_self Term.lopsided)
    exact ⟨accepted, within, depth_bounded_by_turns.1 _ accepted _ within⟩
  · intro tall
    have accepted : (DeploymentSummary.ofTerm tall).violations = [] := rfl
    have within := Term.Within.here (List.mem_singleton_self tall)
    exact ⟨accepted, within, depth_bounded_by_turns.2.1 _ accepted _ within⟩

end FleetSearch
