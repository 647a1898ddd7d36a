import FleetSearch.Proofs.Gathering
import FleetSearch.Proofs.Naming
import FleetSearch.Proofs.Values

/-! # The wording of violations

Clients are told of violations in one text, in which marks stand between fields and messages and
around the parts. Where the fields and the messages have no marks themselves the text can be taken
apart in one way only, so it tells what was found. What is found in requests and in their parts is
always told in this way. -/
namespace FleetSearch

namespace Violation

mutual

/-- No field and no message has a mark, however deep it stands. -/
def Plain : Violation → Prop
  | .message text => Unmarked text
  | .nested fields => FieldsPlain fields

def FieldsPlain : List (String × Violation) → Prop
  | [] => True
  | (field, violation) :: rest => Unmarked field ∧ violation.Plain ∧ FieldsPlain rest

end

theorem fieldsPlain_iff (fields : List (String × Violation)) :
    FieldsPlain fields ↔ ∀ entry ∈ fields, Unmarked entry.1 ∧ entry.2.Plain := by
  induction fields with
  | nil => simp [FieldsPlain]
  | cons head rest ih => rw [FieldsPlain, ih, List.forall_mem_cons, and_assoc]

/-! ## The text by its characters -/

theorem toList_text_nested (fields : List (String × Violation)) :
    (nested fields).text.toList = '(' :: ((fieldsText fields).toList ++ ['.', ')']) := by
  rw [text, String.toList_append, String.toList_append]
  rfl

/-- What is told behind a violation, of the fields after its own. -/
def following : List (String × Violation) → List Char
  | [] => []
  | next :: rest => ';' :: ' ' :: (fieldsText (next :: rest)).toList

theorem toList_fieldsText_cons (field : String) (violation : Violation)
    (rest : List (String × Violation)) (after : List Char) :
    (fieldsText ((field, violation) :: rest)).toList ++ after =
      field.toList ++ ':' :: ' ' :: (violation.text.toList ++ (following rest ++ after)) := by
  cases rest <;> simp [fieldsText, following]

/-- A violation is told up to a semicolon or up to a period. -/
inductive Ends : List Char → Prop where
  | semicolon (after : List Char) : Ends (';' :: after)
  | period (after : List Char) : Ends ('.' :: after)

theorem ends_following (rest : List (String × Violation)) (after : List Char) :
    Ends (following rest ++ '.' :: after) := by
  cases rest with
  | nil => exact .period after
  | cons next rest => exact .semicolon _

theorem Ends.exists_mark {after : List Char} (ends : Ends after) :
    ∃ mark ∈ marks, mark ≠ '(' ∧ ∃ rest, after = mark :: rest := by
  cases ends with
  | semicolon rest => exact ⟨';', by decide, by decide, rest, rfl⟩
  | period rest => exact ⟨'.', by decide, by decide, rest, rfl⟩

/-! ## Taking the text apart -/

/-- Up to its first mark a text is read in one way, also where nothing stands before the mark. -/
theorem append_mark_ne {text : String} (unmarked : Unmarked text) {mark mark' : Char}
    (known : mark ∈ marks) (known' : mark' ∈ marks) (apart : mark ≠ mark')
    (after after' : List Char) : text.toList ++ mark :: after ≠ mark' :: after' := by
  have nothing : Unmarked "" := by decide
  intro same
  obtain ⟨_, marks, _⟩ := append_marks_inj known known' unmarked nothing same
  exact apart marks

/-- A message is told from a part by the bracket in front. -/
theorem message_ne_bracket {text : String} (unmarked : Unmarked text) {after : List Char}
    (ends : Ends after) (rest : List Char) : text.toList ++ after ≠ '(' :: rest := by
  obtain ⟨mark, known, other, behind, rfl⟩ := ends.exists_mark
  exact append_mark_ne unmarked known (by decide) other behind rest

/-- A field starts otherwise than the end of all fields does. -/
theorem fieldsText_cons_ne_period {field : String} (unmarked : Unmarked field)
    (violation : Violation) (rest : List (String × Violation)) (after after' : List Char) :
    (fieldsText ((field, violation) :: rest)).toList ++ after ≠ '.' :: after' := by
  rw [toList_fieldsText_cons]
  exact append_mark_ne unmarked (by decide) (by decide) (by decide) _ _

/- The texts of both are taken apart side by side. What is left behind a violation is kept in the
statement, since the fields after it are read from there. -/
mutual

/-- A violation is told by its text, wherever the text goes on. -/
theorem text_append_inj : (v w : Violation) → v.Plain → w.Plain → ∀ {after after' : List Char},
    Ends after → Ends after' → v.text.toList ++ after = w.text.toList ++ after' →
    v = w ∧ after = after'
  | .message text, .message text', plain, plain', after, after', ends, ends', same => by
    obtain ⟨mark, known, _, _, rfl⟩ := ends.exists_mark
    obtain ⟨mark', known', _, _, rfl⟩ := ends'.exists_mark
    obtain ⟨texts, rfl, rfl⟩ := append_marks_inj known known' plain plain' same
    exact ⟨congrArg message (String.toList_inj.mp texts), rfl⟩
  | .message text, .nested fields, plain, _, _, _, ends, _, same => by
    rw [toList_text_nested] at same
    exact absurd same (message_ne_bracket plain ends _)
  | .nested fields, .message text, _, plain, _, _, _, ends, same => by
    rw [toList_text_nested] at same
    exact absurd same.symm (message_ne_bracket plain ends _)
  | .nested fields, .nested fields', plain, plain', after, after', _, _, same => by
    rw [toList_text_nested, toList_text_nested, List.cons_append, List.cons_append,
      List.append_assoc, List.append_assoc] at same
    obtain ⟨rfl, rests⟩ := fieldsText_append_inj fields fields' plain plain' (List.cons.inj same).2
    exact ⟨rfl, (List.cons.inj rests).2⟩

/-- Fields are told by their text up to the period behind them. -/
theorem fieldsText_append_inj : (fields fields' : List (String × Violation)) →
    FieldsPlain fields → FieldsPlain fields' → ∀ {after after' : List Char},
    (fieldsText fields).toList ++ '.' :: after = (fieldsText fields').toList ++ '.' :: after' →
    fields = fields' ∧ after = after'
  | [], [], _, _, _, _, same => ⟨rfl, (List.cons.inj same).2⟩
  | [], (_, _) :: _, _, ⟨named, _⟩, _, _, same =>
    absurd same.symm (fieldsText_cons_ne_period named _ _ _ _)
  | (_, _) :: _, [], ⟨named, _⟩, _, _, _, same =>
    absurd same (fieldsText_cons_ne_period named _ _ _ _)
  | (field, violation) :: rest, (field', violation') :: rest', ⟨named, plain, others⟩,
      ⟨named', plain', others'⟩, after, after', same => by
    rw [toList_fieldsText_cons, toList_fieldsText_cons] at same
    obtain ⟨names, _, behind⟩ := append_marks_inj (by decide) (by decide) named named' same
    obtain rfl := String.toList_inj.mp names
    obtain ⟨rfl, goesOn⟩ := text_append_inj violation violation' plain plain'
      (ends_following rest after) (ends_following rest' after') (List.cons.inj behind).2
    -- The mark behind the violation tells whether there are more fields.
    cases rest with
    | nil =>
      cases rest' with
      | nil => exact ⟨rfl, (List.cons.inj goesOn).2⟩
      | cons _ _ => cases goesOn
    | cons next rest =>
      cases rest' with
      | nil => cases goesOn
      | cons next' rest' =>
        have later := (List.cons.inj (List.cons.inj goesOn).2).2
        obtain ⟨rests, afters⟩ :=
          fieldsText_append_inj (next :: rest) (next' :: rest') others others' later
        exact ⟨congrArg _ rests, afters⟩

end

end Violation

namespace Violations

def Plain (violations : Violations) : Prop := Violation.FieldsPlain violations

/-- Plain violations are told by their text. -/
theorem Plain.eq_of_text {found other : Violations} (plain : found.Plain) (plain' : other.Plain)
    (same : found.text = other.text) : found = other := by
  have chars := congrArg String.toList same
  rw [text, text, String.toList_append, String.toList_append] at chars
  exact (Violation.fieldsText_append_inj found other plain plain' chars).1

/-! ## What checks find is plain -/

theorem Plain.insert {found : Violations} (plain : found.Plain) {field : String}
    (named : Unmarked field) {violation : Violation} (part : violation.Plain) :
    Plain (Table.insert found field violation) := by
  refine (Violation.fieldsPlain_iff _).mpr ?_
  intro entry member
  obtain rfl | member := Table.mem_of_mem_insert member
  · exact ⟨named, part⟩
  · exact (Violation.fieldsPlain_iff found).mp plain entry member

theorem Gathered.plain {found : Violations} (gathered : found.Gathered) : found.Plain := by
  induction gathered with
  | nil => trivial
  | add _ named told ih => exact ih.insert named told
  | @nest found inner field _ named _ ih part =>
    cases inner with
    | nil => exact ih
    | cons head rest => exact ih.insert named part

/-- What is found in a request, or in a part of one that is checked by itself. -/
inductive Found : Violations → Prop where
  | request (r : Request) : Found r.violations
  | predicate {σ : Type} [Scoping σ] (p : Predicate σ) : Found p.violations
  | sortKey {σ : Type} [Scoping σ] (k : SortKey σ) : Found k.violations
  | subject {σ : Type} [Scoping σ] (a : Attribute σ) : Found a.violations
  | term {σ : Type} [Scoping σ] (t : Term σ) : Found t.violations
  | point (p : Point) : Found p.violations
  | circle (c : Circle) : Found c.violations
  | rectangle (b : Rectangle) : Found b.violations
  | distanceFilter (f : DistanceFilter) : Found f.violations
  | boundingBox (b : BoundingBox) : Found b.violations
  | boxFilter (f : BoxFilter) : Found f.violations

theorem Found.gathered {violations : Violations} (found : Found violations) :
    violations.Gathered := by
  cases found with
  | request r => exact r.gathered_violations
  | predicate p => exact p.gathered_violations
  | sortKey k => exact k.gathered_violations
  | subject a => exact a.gathered_violations
  | term t => exact t.gathered_violations
  | point p => exact p.gathered_violations
  | circle c => exact c.gathered_violations
  | rectangle b => exact b.gathered_violations
  | distanceFilter f => exact f.gathered_violations
  | boundingBox b => exact b.gathered_violations
  | boxFilter f => exact f.gathered_violations

/-- The text of violations determines them, where no field and no message has a mark. What is found
in a request or in a part of one is of this kind at every depth, so the message with which a request
is refused tells exactly which fields fail and why. -/
theorem text_unambiguous :
    (∀ violations other : Violations, violations.Plain → other.Plain →
      violations.text = other.text → violations = other) ∧
    (∀ violations, Found violations → violations.Plain) ∧
    ∀ violations other, Found violations → Found other →
      (Refusal.invalid violations).message = (Refusal.invalid other).message →
      violations = other := by
  refine ⟨fun _ _ plain plain' => plain.eq_of_text plain', fun _ found => found.gathered.plain, ?_⟩
  intro violations other found found' same
  exact found.gathered.plain.eq_of_text found'.gathered.plain same

/-- Buckets without a name. With a mark in a message two findings can have one text. -/
theorem text_unambiguous_nameless :
    let nameless : Term Scope := .mk "" ⟨⟨"inventory"⟩, "status"⟩ 0 []
    let summary : Request := .deviceSummary ⟨[nameless], [], .none⟩
    (∀ other, Found other →
      (Refusal.invalid other).message = "aggregations: (0: (name: cannot be blank.).)." →
      other = summary.violations) ∧
    summary.violations.Plain ∧
    (∀ other : Violations, other.Plain → other.text = "name: cannot be blank." →
      other = nameless.violations) ∧
    text [("a", .message "b; c: d")] = text [("a", .message "b"), ("c", .message "d")] := by
  intro nameless summary
  have written : (Refusal.invalid summary.violations).message =
      "aggregations: (0: (name: cannot be blank.).)." := rfl
  have part : nameless.violations.text = "name: cannot be blank." := rfl
  refine ⟨?_, text_unambiguous.2.1 _ (.request summary), ?_, rfl⟩
  · intro other found same
    exact text_unambiguous.2.2 other _ found (.request summary) (same.trans written.symm)
  · intro other plain same
    have plain' := text_unambiguous.2.1 _ (.term nameless)
    exact text_unambiguous.1 other _ plain plain' (same.trans part.symm)

end Violations

end FleetSearch
