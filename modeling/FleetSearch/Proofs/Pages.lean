import FleetSearch.Proofs.Compiled
import FleetSearch.Proofs.Document
import FleetSearch.Proofs.Written
import Mathlib.Algebra.Order.Ring.Int
import Mathlib.Data.Int.ConditionallyCompleteOrder
import Mathlib.Data.Set.Lattice
import Mathlib.Order.CompletePartialOrder
import Mathlib.Order.Interval.Set.Basic
import Mathlib.Tactic.Linarith

/-! # Pages

The start of a page is computed in two steps that both stay within 64 bits, which comes to one step
that does. Settings in order keep the size of a page positive and below their limit. So the pages of a
search never start before its first result, and as long as their starts fit 64 bits they follow each
other without a gap or an overlap. -/
namespace FleetSearch

open Number (leastInt64 greatestInt64)

/-! ## Where a page starts -/

theorem saturate_of_low {n : Int} (low : n ≤ leastInt64) : saturate n = leastInt64 := by
  have order : leastInt64 ≤ greatestInt64 := by decide
  rw [saturate_eq]
  omega

theorem saturate_of_high {n : Int} (high : greatestInt64 ≤ n) : saturate n = greatestInt64 := by
  have order : leastInt64 ≤ greatestInt64 := by decide
  rw [saturate_eq]
  omega

/-- Below the least number it does not matter how far: the product is beyond 64 bits, or zero. -/
theorem saturate_mul_of_low {n : Int} (low : n ≤ leastInt64) (m : Int) :
    saturate (leastInt64 * m) = saturate (n * m) := by
  have least : leastInt64 < 0 := by decide
  have opposite : greatestInt64 ≤ -leastInt64 := by decide
  obtain negative | rfl | positive := Int.lt_trichotomy m 0
  · have high : greatestInt64 ≤ leastInt64 * m := by nlinarith
    have higher : greatestInt64 ≤ n * m := by nlinarith
    rw [saturate_of_high high, saturate_of_high higher]
  · rw [Int.mul_zero, Int.mul_zero]
  · have lower : leastInt64 * m ≤ leastInt64 := by nlinarith
    have lowest : n * m ≤ leastInt64 := by nlinarith
    rw [saturate_of_low lower, saturate_of_low lowest]

/-- Staying within 64 bits twice is staying within them once. -/
theorem Query.pageOffset_eq {page : Int} (fits : page ≤ greatestInt64) (perPage : Int) :
    pageOffset page perPage = max leastInt64 (min ((page - 1) * perPage) greatestInt64) := by
  rw [pageOffset, ← saturate_eq]
  by_cases low : page - 1 ≤ leastInt64
  · rw [saturate_of_low low, saturate_mul_of_low low]
  · have near : saturate (page - 1) = page - 1 := saturate_of_fits (by omega) (by omega)
    rw [near]

/-- Pages that are not before the first one, of a positive size. -/
theorem Query.pageOffset_of_pos {page perPage : Int} (late : 1 ≤ page) (positive : 0 < perPage) :
    pageOffset page perPage = min ((page - 1) * perPage) greatestInt64 := by
  have least : leastInt64 ≤ 0 := by decide
  have greatest : 0 ≤ greatestInt64 := by decide
  have start : 0 ≤ (page - 1) * perPage := Int.mul_nonneg (by omega) (by omega)
  by_cases fits : page ≤ greatestInt64
  · rw [pageOffset_eq fits]
    omega
  · have far : greatestInt64 ≤ (page - 1) * perPage := by nlinarith
    have first : saturate (page - 1) = greatestInt64 := saturate_of_high (by omega)
    have beyond : greatestInt64 ≤ greatestInt64 * perPage := by nlinarith
    rw [pageOffset, first, saturate_of_high beyond, min_eq_right far]

/-! ## Settings in order -/

namespace Settings

theorem problems_eq_nil_iff (s : Settings) : s.problems = [] ↔
    s.devicesIndex ≠ "" ∧ s.deploymentsIndex ≠ "" ∧ 0 < s.defaultPerPage ∧ 0 < s.mostPerPage ∧
      s.defaultPerPage ≤ s.mostPerPage := by
  have none_iff {p : Prop} [Decidable p] (problem : String) :
      (if p then [problem] else []) = [] ↔ ¬ p := by
    split <;> simp [*]
  simp only [problems, List.append_eq_nil_iff, none_iff, String.isEmpty_iff, Int.not_le, Int.not_lt,
    and_assoc, ne_eq]

/-- Where a page starts, for the size that is asked for. -/
def pageStart (s : Settings) (page perPage : Int) : Int :=
  min ((max page 1 - 1) * s.pageSize perPage) greatestInt64

section

variable {s : Settings} (sound : s.problems = [])

include sound

theorem pageSize_pos (perPage : Int) : 0 < s.pageSize perPage := by
  obtain ⟨_, _, standing, most, _⟩ := s.problems_eq_nil_iff.mp sound
  unfold pageSize
  split <;> omega

/-- The standing size is not capped itself, but settings in order have it within the limit. -/
theorem pageSize_le (perPage : Int) : s.pageSize perPage ≤ s.mostPerPage := by
  obtain ⟨_, _, _, _, within⟩ := s.problems_eq_nil_iff.mp sound
  unfold pageSize
  split <;> omega

theorem pageOffset_paging (page perPage : Int) :
    Query.pageOffset (s.paging page perPage).1 (s.paging page perPage).2 =
      s.pageStart page perPage := by
  rw [s.paging_eq]
  exact Query.pageOffset_of_pos (by omega) (pageSize_pos sound perPage)

theorem pageStart_nonneg (page perPage : Int) : 0 ≤ s.pageStart page perPage := by
  have positive := pageSize_pos sound perPage
  have start : 0 ≤ (max page 1 - 1) * s.pageSize perPage := Int.mul_nonneg (by omega) (by omega)
  exact le_min start (by decide)

theorem pageStart_mono {page later : Int} (le : page ≤ later) (perPage : Int) :
    s.pageStart page perPage ≤ s.pageStart later perPage := by
  have positive := pageSize_pos sound perPage
  have starts : (max page 1 - 1) * s.pageSize perPage ≤ (max later 1 - 1) * s.pageSize perPage :=
    Int.mul_le_mul_of_nonneg_right (by omega) (by omega)
  exact min_le_min_right _ starts

/-- The starts of the pages up to some page fit as soon as that of this page does. -/
theorem pageStart_of_fits {n page perPage : Int}
    (fits : (n - 1) * s.pageSize perPage ≤ greatestInt64) (listed : page ∈ Set.Icc 1 n) :
    s.pageStart page perPage = (page - 1) * s.pageSize perPage := by
  obtain ⟨first, last⟩ := listed
  have positive := pageSize_pos sound perPage
  have within : (page - 1) * s.pageSize perPage ≤ (n - 1) * s.pageSize perPage :=
    Int.mul_le_mul_of_nonneg_right (by omega) (by omega)
  rw [pageStart, max_eq_left first, min_eq_left (within.trans fits)]

end

end Settings

/-! ## Windows -/

/-- The places, in the order of results, of those that a search lists. -/
def IndexSearch.window (found : IndexSearch) : Set Int :=
  Set.Ico found.body.offset (found.body.offset + found.body.size)

section

variable {size : Int} (positive : 0 < size)

include positive

/-- Starts that are one size apart. -/
theorem disjoint_windows {page other : Int} (apart : page ≠ other) :
    Disjoint (Set.Ico ((page - 1) * size) ((page - 1) * size + size))
      (Set.Ico ((other - 1) * size) ((other - 1) * size + size)) := by
  rw [Set.disjoint_left]
  rintro place ⟨from_page, before_next⟩ ⟨from_other, before_next'⟩
  obtain earlier | later := Int.lt_or_gt_of_ne apart
  · have after : (page - 1) * size + size ≤ (other - 1) * size := by nlinarith
    omega
  · have after : (other - 1) * size + size ≤ (page - 1) * size := by nlinarith
    omega

/-- A place is on the page that its quotient tells. -/
theorem cover_windows (n : Int) :
    ⋃ page ∈ Set.Icc 1 n, Set.Ico ((page - 1) * size) ((page - 1) * size + size) =
      Set.Ico 0 (n * size) := by
  ext place
  simp only [Set.mem_iUnion, Set.mem_Icc, Set.mem_Ico, exists_prop]
  constructor
  · rintro ⟨page, ⟨first, last⟩, start, stop⟩
    have nonneg : 0 ≤ (page - 1) * size := Int.mul_nonneg (by omega) (by omega)
    have within : (page - 1) * size + size ≤ n * size := by nlinarith
    omega
  · rintro ⟨nonneg, within⟩
    have below := Int.ediv_mul_le place (Int.ne_of_gt positive)
    have above := Int.lt_ediv_add_one_mul_self place positive
    have first : 0 ≤ place / size := Int.ediv_nonneg nonneg (by omega)
    have last : place / size < n := Int.ediv_lt_of_lt_mul positive within
    refine ⟨place / size + 1, ⟨by omega, by omega⟩, ?_, ?_⟩
    · rw [Int.add_sub_cancel]
      exact below
    · rw [Int.add_sub_cancel]
      rw [Int.add_mul, Int.one_mul] at above
      exact above

end

/-- The pages of a search that asks for `perPage` results on each. -/
structure Paged (s : Settings) (perPage : Int) (pages : Int → IndexSearch) : Prop where
  size : ∀ page, (pages page).body.size =
    if perPage ≤ 0 then s.defaultPerPage else min perPage s.mostPerPage
  size_pos : ∀ page, 0 < (pages page).body.size
  size_le : ∀ page, (pages page).body.size ≤ s.mostPerPage
  offset : ∀ page, (pages page).body.offset =
    min ((max page 1 - 1) * (pages page).body.size) greatestInt64
  offset_nonneg : ∀ page, 0 ≤ (pages page).body.offset
  /-- The document tells both. -/
  written : ∀ page,
    (pages page).body.toJson.member? "from" = some (.number (.int (pages page).body.offset)) ∧
    (pages page).body.toJson.member? "size" = some (.number (.int (pages page).body.size))
  monotone : Monotone fun page => (pages page).body.offset
  consecutive : ∀ n, (n - 1) * (pages n).body.size ≤ greatestInt64 → ∀ page, 1 ≤ page → page < n →
    (pages (page + 1)).body.offset = (pages page).body.offset + (pages page).body.size
  disjoint : ∀ n, (n - 1) * (pages n).body.size ≤ greatestInt64 →
    (Set.Icc 1 n).PairwiseDisjoint fun page => (pages page).window
  cover : ∀ n, (n - 1) * (pages n).body.size ≤ greatestInt64 →
    ⋃ page ∈ Set.Icc 1 n, (pages page).window = Set.Ico 0 (n * (pages n).body.size)

/-- Nothing is wrong with a search, and each of its filters can be built. -/
def Acceptable {σ : Type} [Scoping σ] (violations : Violations) (filters : List (Predicate σ)) :
    Prop :=
  violations = [] ∧ ∀ p ∈ filters, ∃ f, p.filter = .ok f

/-- What comes of a search on all its pages: an acceptable one is listed page by page, any other is
refused alike on all of them. -/
structure Turned (s : Settings) (perPage : Int) (acceptable : Prop)
    (answer : Int → Except Refusal IndexSearch) : Prop where
  listed : acceptable →
    ∃ pages, (∀ page, answer page = .ok (pages page)) ∧ Paged s perPage pages
  refused : ¬ acceptable → ∃ refusal, ∀ page, answer page = .error refusal

/-- The window of a query without extras is written as it is. -/
theorem Query.member?_window {q : Query} (none : q.extras = []) :
    q.toJson.member? "from" = some (.number (.int q.offset)) ∧
      q.toJson.member? "size" = some (.number (.int q.size)) := by
  rw [member?_of_no_extras none, member?_of_no_extras none]
  constructor <;> cases sorted : q.sort <;> simp [slots, clausesMember, sorted, List.lookup_cons]

theorem Paged.of_paging {s : Settings} (sound : s.problems = []) {perPage : Int}
    {pages : Int → IndexSearch}
    (offset : ∀ page, (pages page).body.offset =
      Query.pageOffset (s.paging page perPage).1 (s.paging page perPage).2)
    (size : ∀ page, (pages page).body.size = (s.paging page perPage).2)
    (plain : ∀ page, (pages page).body.extras = []) : Paged s perPage pages := by
  have sized (page : Int) : (pages page).body.size = s.pageSize perPage := by
    rw [size, s.paging_eq]
  have placed (page : Int) : (pages page).body.offset = s.pageStart page perPage := by
    rw [offset, Settings.pageOffset_paging sound]
  have window {n page : Int} (fits : (n - 1) * (pages n).body.size ≤ greatestInt64)
      (listed : page ∈ Set.Icc 1 n) : (pages page).window =
        Set.Ico ((page - 1) * s.pageSize perPage)
          ((page - 1) * s.pageSize perPage + s.pageSize perPage) := by
    rw [sized] at fits
    rw [IndexSearch.window, placed, sized, Settings.pageStart_of_fits sound fits listed]
  have positive : 0 < s.pageSize perPage := Settings.pageSize_pos sound perPage
  constructor
  case size => exact sized
  case size_pos => exact fun page => by rw [sized]; exact positive
  case size_le => exact fun page => by rw [sized]; exact Settings.pageSize_le sound perPage
  case offset => exact fun page => by rw [placed, sized]; rfl
  case offset_nonneg => exact fun page => by rw [placed]; exact Settings.pageStart_nonneg sound page _
  case written => exact fun page => Query.member?_window (plain page)
  case monotone =>
    intro page later le
    simp only [placed]
    exact Settings.pageStart_mono sound le perPage
  case consecutive =>
    intro n fits page first last
    rw [sized] at fits
    have here := Settings.pageStart_of_fits sound fits (Set.mem_Icc.mpr ⟨first, by omega⟩)
    have next := Settings.pageStart_of_fits sound fits (Set.mem_Icc.mpr ⟨by omega, last⟩)
    rw [placed, placed, sized, here, next, Int.add_sub_cancel, Int.sub_mul, Int.one_mul,
      Int.sub_add_cancel]
  case disjoint =>
    intro n fits page listed other listed' apart
    change Disjoint (pages page).window (pages other).window
    rw [window fits listed, window fits listed']
    exact disjoint_windows positive apart
  case cover =>
    intro n fits
    rw [sized, ← cover_windows positive n]
    exact Set.iUnion₂_congr fun page listed => window fits listed

/-- Where only the window of the body depends on the page. -/
theorem Turned.of_checked {s : Settings} (sound : s.problems = []) {perPage : Int} {σ : Type}
    [Scoping σ] (violations : Violations) (predicates : List (Predicate σ)) (index : String)
    {body : Int → List Filter → Query}
    (offset : ∀ page found, (body page found).offset =
      Query.pageOffset (s.paging page perPage).1 (s.paging page perPage).2)
    (size : ∀ page found, (body page found).size = (s.paging page perPage).2)
    (plain : ∀ page found, (body page found).extras = []) :
    Turned s perPage (Acceptable violations predicates) fun page =>
      Settings.checked violations
        ((predicates.mapM Predicate.filter).map fun found => ⟨index, body page found⟩) where
  listed := by
    rintro ⟨rfl, each⟩
    obtain ⟨found, built⟩ := exists_mapM_eq_ok_iff.mpr each
    refine ⟨fun page => ⟨index, body page found⟩, ?_, Paged.of_paging sound
      (fun page => offset page found) (fun page => size page found) fun page => plain page found⟩
    intro page
    rw [built]
    rfl
  refused := by
    intro unacceptable
    cases violations with
    | cons violation rest => exact ⟨_, fun _ => rfl⟩
    | nil =>
      cases built : predicates.mapM Predicate.filter with
      | error problem => exact ⟨.filter problem, fun _ => rfl⟩
      | ok found => exact absurd ⟨rfl, exists_mapM_eq_ok_iff.mp ⟨found, built⟩⟩ unacceptable

/-- A page starts where its number and its size tell, as far as 64 bits go. And under settings in
order a search that is acceptable, of devices or of deployments, is listed whatever size its pages are
to have: on pages of a positive size within the limit, of which those that fit 64 bits cover the
results from the first one on, each of them once. -/
theorem pages_tile :
    (∀ (q : Query) (page perPage : Int), page ≤ greatestInt64 →
      (q.withPage page perPage).offset = max leastInt64 (min ((page - 1) * perPage) greatestInt64) ∧
        (q.withPage page perPage).size = perPage) ∧
    ∀ (s : Settings) (context : Context), s.problems = [] →
      (∀ (search : DeviceSearch) (perPage : Int),
        Turned s perPage (Acceptable search.violations search.filters) fun page =>
          s.compileDeviceSearch context { search with page, perPage }) ∧
      ∀ (search : DeploymentSearch) (perPage : Int),
        Turned s perPage (Acceptable search.violations search.filters) fun page =>
          s.compileDeploymentSearch context { search with page, perPage } := by
  constructor
  · intro q page perPage fits
    exact ⟨Query.pageOffset_eq fits perPage, rfl⟩
  · intro s context sound
    constructor
    · intro search perPage
      have compiled (page : Int) :=
        s.compile_eq context (.deviceSearch { search with page, perPage })
      simp only [Settings.compile] at compiled
      simp only [compiled]
      exact .of_checked sound search.violations search.filters s.devicesIndex
        (fun _ _ => rfl) (fun _ _ => rfl) fun _ _ => rfl
    · intro search perPage
      have compiled (page : Int) :=
        s.compile_eq context (.deploymentSearch { search with page, perPage })
      simp only [Settings.compile] at compiled
      simp only [compiled]
      exact .of_checked sound search.violations search.filters s.deploymentsIndex
        (fun _ _ => rfl) (fun _ _ => rfl) fun _ _ => rfl

/-- The third page of devices of the size that stands where none is asked for, and the second page of
deployments where the size is beyond the limit. And the one product that the two steps do not compute
exactly, since the number before the least one does not fit. -/
theorem pages_tile_third :
    (leastInt64 ≤ greatestInt64 ∧ (Query.empty.withPage leastInt64 (-1)).offset = greatestInt64) ∧
    Settings.forTests.problems = [] ∧
    (∃ found, Settings.forTests.compileDeviceSearch ⟨"acme", []⟩ (.ofPage 3 0) = .ok found ∧
      found.window = Set.Ico 20 30) ∧
    ∃ found, Settings.forTests.compileDeploymentSearch ⟨"acme", ["east"]⟩ (.ofPage 2 1000) = .ok found ∧
      found.window = Set.Ico 100 200 := by
  have order : leastInt64 ≤ greatestInt64 := by decide
  have sound : Settings.forTests.problems = [] := by decide
  have least := (pages_tile.1 Query.empty leastInt64 (-1) order).1
  refine ⟨⟨order, least.trans (by decide)⟩, sound, ?_, ?_⟩
  · obtain ⟨pages, answers, paged⟩ := ((pages_tile.2 Settings.forTests ⟨"acme", []⟩ sound).1
      (.ofPage 1 1) 0).listed ⟨rfl, List.forall_mem_nil _⟩
    refine ⟨pages 3, answers 3, ?_⟩
    rw [IndexSearch.window, paged.offset, paged.size]
    rfl
  · obtain ⟨pages, answers, paged⟩ := ((pages_tile.2 Settings.forTests ⟨"acme", ["east"]⟩ sound).2
      (.ofPage 1 1) 1000).listed ⟨rfl, List.forall_mem_nil _⟩
    refine ⟨pages 2, answers 2, ?_⟩
    rw [IndexSearch.window, paged.offset, paged.size]
    rfl

end FleetSearch
