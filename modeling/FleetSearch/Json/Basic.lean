import FleetSearch.Decimal.Shortest

/-! # JSON values

The values that documents are made of. Members of an object stand in the order in which they are
written. -/
namespace FleetSearch

open Decimal (Binary Layout)

/-- A number keeps the form in which it was given: whole, or of one of the two binary formats. -/
inductive Number where
  | int (n : Int)
  | double (x : Binary)
  | single (x : Binary)
  deriving DecidableEq, Repr

inductive Json where
  | null
  | bool (b : Bool)
  | number (n : Number)
  | string (s : String)
  | array (items : List Json)
  | object (members : List (String × Json))
  deriving Repr, Inhabited

/-- Doubles have their shortest digits, a whole one `.0`, and an exponent from `1e16` on and below
`0.00001`. -/
def Number.doubleLayout : Layout := ⟨.double, .toEven, some (-4, 16), ".0"⟩

/-- Singles likewise, with an exponent from `1e13` on and below `0.000001`. -/
def Number.singleLayout : Layout := ⟨.single, .toEven, some (-5, 13), ".0"⟩

def Number.text : Number → String
  | int n => toString n
  | double x => doubleLayout.text x
  | single x => singleLayout.text x

def Number.leastInt64 : Int := -9223372036854775808

def Number.greatestInt64 : Int := 9223372036854775807

namespace Json

/-- An object with one member. -/
def tagged (name : String) (value : Json) : Json := .object [(name, value)]

def strings (texts : List String) : Json := .array (texts.map .string)

def string? : Json → Option String
  | .string s => some s
  | _ => none

def number? : Json → Option Number
  | .number n => some n
  | _ => none

def bool? : Json → Option Bool
  | .bool b => some b
  | _ => none

def isScalar : Json → Bool
  | .string _ | .number _ | .bool _ => true
  | _ => false

def ofOptional {α : Type} (write : α → Json) : Option α → Json
  | none => .null
  | some x => write x

/-- A member that is left out where there is nothing to write. -/
def memberOf {α : Type} (name : String) (write : α → Json) : Option α → List (String × Json)
  | none => []
  | some x => [(name, write x)]

end Json

end FleetSearch
