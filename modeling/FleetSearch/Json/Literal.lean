import FleetSearch.Json.Basic

/-! # Number literals

The value of a number as it is spelt. A whole literal within 64 bits keeps its value; any other is a
double, reached from the leading digits that fit 64 bits by one multiplication or division by a
power of ten. -/
namespace FleetSearch

open Decimal (Binary Format)

/-- The parts of a spelt number, digits as numbers below ten. -/
structure Literal where
  negative : Bool
  whole : List Nat
  fraction : Option (List Nat)
  exponent : Option (Bool × List Nat)
  deriving DecidableEq, Repr

namespace Literal

def greatestWord : Nat := 18446744073709551615

/-- Appends digits while the significand fits a word. The rest is handed back. -/
def gather (significand : Nat) : List Nat → Nat × List Nat
  | [] => (significand, [])
  | digit :: rest =>
    if significand * 10 + digit ≤ greatestWord then gather (significand * 10 + digit) rest
    else (significand, digit :: rest)

/-- The significand and the power of ten it stands for, without the written exponent. Whole digits
that do not fit count; digits of the fraction that do not fit are dropped. -/
def significand (l : Literal) : Nat × Int :=
  let (leading, dropped) := gather 0 l.whole
  let fraction := l.fraction.getD []
  let (all, left) := gather leading fraction
  (all, (dropped.length : Int) - ((fraction.length - left.length : Nat) : Int))

def naturalOf (digits : List Nat) : Nat := digits.foldl (fun n digit => n * 10 + digit) 0

def exponentValue (l : Literal) : Int :=
  match l.exponent with
  | none => 0
  | some (negative, digits) =>
    if negative then -(naturalOf digits : Int) else (naturalOf digits : Int)

/-- The greatest power of ten that a double holds. -/
def greatestPower : Int := 308

def powerDouble? (exponent : Int) : Option Binary :=
  Format.double.round? false (Decimal.powerOfTen exponent) 1

/-- The double `significand * 10 ^ exponent`; none where it is too great. Below the least power the
division is done in two steps. -/
def scale? (significand : Nat) (exponent : Int) : Option Binary := do
  let x ← Format.double.round? false significand 1
  if x.isZero then return x
  if greatestPower < exponent then none
  else if 0 ≤ exponent then x.mul? .double (← powerDouble? exponent)
  else if -greatestPower ≤ exponent then x.div? .double (← powerDouble? (-exponent))
  else
    let y ← x.div? .double (← powerDouble? greatestPower)
    if exponent < -(2 * greatestPower) then return ⟨false, 0, Format.double.least⟩
    y.div? .double (← powerDouble? (-exponent - greatestPower))

def double? (l : Literal) : Option Number := do
  let (significand, exponent) := l.significand
  let x ← scale? significand (exponent + l.exponentValue)
  return .double { x with negative := l.negative }

/-- The value of a literal; none if it is beyond the doubles. The whole literal `-0` is a double, so
that its sign is kept. -/
def number? (l : Literal) : Option Number :=
  match l.fraction, l.exponent with
  | none, none =>
    let n := naturalOf l.whole
    if l.negative then
      if 0 < n ∧ (n : Int) ≤ -Number.leastInt64 then some (.int (-(n : Int))) else l.double?
    else if n ≤ greatestWord then some (.int n)
    else l.double?
  | _, _ => l.double?

end Literal

end FleetSearch
