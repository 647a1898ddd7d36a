import FleetSearch.Decimal.Shortest

/-! # Rules

Checks of single fields. A rule answers with a message, or with nothing where it holds. -/
namespace FleetSearch.Rule

open Decimal (Extended Layout)

def blank : String := "cannot be blank"

def absent : String := "is required"

def unlisted : String := "must be a valid value"

def failing (broken : Bool) (message : String) : Option String :=
  if broken then some message else none

def required (value : String) : Option String := failing value.isEmpty blank

/-- A blank value is left to `required`. -/
def oneOf (value : String) (allowed : List String) : Option String :=
  failing (!value.isEmpty && !allowed.contains value) unlisted

def belowText (bound : String) : String := "must be no less than " ++ bound

def aboveText (bound : String) : String := "must be no greater than " ++ bound

def atLeast (value bound : Int) : Option String :=
  failing (decide (value < bound)) (belowText (toString bound))

def atMost (value bound : Int) : Option String :=
  failing (decide (bound < value)) (aboveText (toString bound))

/-- Bounds are written in plain decimals, whole ones without a fraction. -/
def boundLayout : Layout := ⟨.single, .up, none, ""⟩

def boundText : Extended → String
  | .finite x => boundLayout.text x
  | .infinite negative => if negative then "-inf" else "inf"

def atLeastSingle (value bound : Extended) : Option String :=
  failing (value.isBelow bound) (belowText (boundText bound))

def atMostSingle (value bound : Extended) : Option String :=
  failing (bound.isBelow value) (aboveText (boundText bound))

def length (count least most : Nat) : Option String :=
  failing (!(decide (least ≤ count) && decide (count ≤ most)))
    (if least = 0 then "the length must be no more than " ++ toString most
      else "the length must be between " ++ toString least ++ " and " ++ toString most)

end FleetSearch.Rule
