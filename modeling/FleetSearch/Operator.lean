import FleetSearch.FieldName

/-! # Operators

The comparisons that a filter can ask for. -/
namespace FleetSearch

/-- The bounds of a range. -/
inductive Bound where
  | greater
  | greaterOrEqual
  | less
  | lessOrEqual
  deriving DecidableEq, Repr

def Bound.name : Bound → String
  | greater => "gt"
  | greaterOrEqual => "gte"
  | less => "lt"
  | lessOrEqual => "lte"

inductive Operator where
  | equal
  | notEqual
  | range (bound : Bound)
  | oneOf
  | noneOf
  | present
  | pattern
  deriving DecidableEq, Repr

namespace Operator

/-- All operators in the order in which they are listed to clients. -/
def all : List Operator :=
  [equal, range .greater, range .greaterOrEqual, oneOf, range .less, range .lessOrEqual, notEqual,
    noneOf, present, pattern]

def name : Operator → String
  | equal => "$eq"
  | notEqual => "$ne"
  | range bound => "$" ++ bound.name
  | oneOf => "$in"
  | noneOf => "$nin"
  | present => "$exists"
  | pattern => "$regex"

def names : List String := all.map name

def ofName? (text : String) : Option Operator := all.find? (fun operator => operator.name == text)

theorem ofName?_name (operator : Operator) : ofName? operator.name = some operator := by
  cases operator with
  | range bound => cases bound <;> decide
  | _ => decide

/-- Only the listed names are names of operators. -/
theorem ofName?_eq_none_iff (text : String) : ofName? text = none ↔ text ∉ names := by
  simp only [ofName?, names, List.find?_eq_none, List.mem_map, not_exists, not_and, beq_iff_eq]

end Operator

/-- Whether an operator takes arrays. -/
inductive ArrayPolicy where
  | notAllowed
  | allowed
  | required
  deriving DecidableEq, Repr

namespace Operator

def arrays : Operator → ArrayPolicy
  | oneOf | noneOf => .required
  | _ => .notAllowed

def kinds : Operator → KindPolicy
  | present => .only .boolean
  | pattern => .only .string
  | _ => .any

end Operator

end FleetSearch
