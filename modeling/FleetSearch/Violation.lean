import FleetSearch.Table

/-! # Violations

What is wrong with a request, by field: at most one violation for a field, fields in the order of
their names. A request without violations is valid. -/
namespace FleetSearch

/-- A field fails with a message, or with the violations of its own fields. -/
inductive Violation where
  | message (text : String)
  | nested (fields : List (String × Violation))
  deriving Repr

abbrev Violations := List (String × Violation)

mutual

def Violation.text : Violation → String
  | .message text => text
  | .nested fields => "(" ++ Violation.fieldsText fields ++ ".)"

/-- The failing fields with what is wrong with them, set apart by semicolons. -/
def Violation.fieldsText : List (String × Violation) → String
  | [] => ""
  | [(field, violation)] => field ++ ": " ++ violation.text
  | (field, violation) :: next :: rest =>
    field ++ ": " ++ violation.text ++ "; " ++ Violation.fieldsText (next :: rest)

end

namespace Violations

def text (violations : Violations) : String := Violation.fieldsText violations ++ "."

def get? (violations : Violations) (field : String) : Option Violation := violations.lookup field

/-- A later violation of a field replaces an earlier one. -/
def add (violations : Violations) (field message : String) : Violations :=
  Table.insert violations field (.message message)

/-- The first rule that fails speaks for the field. -/
def check (violations : Violations) (field : String) (rules : List (Option String)) : Violations :=
  match rules.findSome? id with
  | some message => add violations field message
  | none => violations

/-- The violations of a part, if it has any. -/
def nest (violations : Violations) (field : String) (inner : Violations) : Violations :=
  match inner with
  | [] => violations
  | _ :: _ => Table.insert violations field (.nested inner)

/-- What a check comes to: all is fine, or it fails with what is wrong. -/
def toResult (violations : Violations) : Except Violations Unit :=
  match violations with
  | [] => .ok ()
  | _ :: _ => .error violations

theorem toResult_eq_ok_iff (violations : Violations) :
    violations.toResult = .ok () ↔ violations = [] := by
  cases violations <;> simp [toResult]

theorem toResult_eq_error_iff (violations : Violations) :
    violations.toResult = .error violations ↔ violations ≠ [] := by
  cases violations <;> simp [toResult]

/-- What the check of a part comes to. One that fails with nothing wrong tells nothing. -/
def nestResult (violations : Violations) (field : String) : Except Violations Unit → Violations
  | .ok () => violations
  | .error inner => violations.nest field inner

/-- The violations of a part tell as much as what its check comes to. -/
@[simp]
theorem nestResult_toResult (violations : Violations) (field : String) (inner : Violations) :
    violations.nestResult field inner.toResult = violations.nest field inner := by
  cases inner <;> rfl

def eachFrom {α : Type} (check : α → Violations) (index : Nat) (violations : Violations) :
    List α → Violations
  | [] => violations
  | item :: rest => eachFrom check (index + 1) (nest violations (toString index) (check item)) rest

/-- The violations of the items of a list, by index. -/
def each {α : Type} (check : α → Violations) (items : List α) : Violations :=
  eachFrom check 0 [] items

/-- Where every rule of a list holds, its items are looked at; `items` has their violations. -/
def checkList (violations : Violations) (field : String) (rules : List (Option String))
    (items : Violations) : Violations :=
  match rules.findSome? id with
  | some message => add violations field message
  | none => nest violations field items

/-- The violations of the first part that has any. -/
def first (parts : List Violations) : Violations := (parts.find? (!·.isEmpty)).getD []

/-- What a path of fields leads to. -/
def at? (violations : Violations) : List String → Option Violation
  | [] => some (.nested violations)
  | field :: path =>
    match get? violations field, path with
    | some (.nested inner), path => at? inner path
    | some (.message text), [] => some (.message text)
    | _, _ => none

end Violations

end FleetSearch
