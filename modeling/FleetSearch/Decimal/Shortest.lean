import FleetSearch.Decimal.Binary

/-! # Shortest decimals

The fewest decimal digits that a binary number is the nearest one to, and their layout as text. -/
namespace FleetSearch.Decimal

/-- Decimal digits with the place of the point: `0.d₁d₂… * 10 ^ point`. -/
structure Digits where
  digits : List Char
  point : Int
  deriving DecidableEq, Repr

/-- Which of two equally near decimals is taken. -/
inductive Tie where
  | toEven
  | up
  deriving DecidableEq, Repr

def digitCount (n : Nat) : Nat := (Nat.toDigits 10 n).length

/-- The place of the point of a positive quotient: the least `k` with `num / den < 10 ^ k`. -/
def decimalPoint (num den : Nat) : Int :=
  if den ≤ num then (digitCount (num / den) : Int)
  else 1 - (digitCount ((den + num - 1) / num - 1) : Int)

/-- The reals that round to a positive number, ends included where the mantissa is even: in units of
`2 ^ (exponent - 2)` they reach from `low` to `high`. -/
structure Interval where
  low : Nat
  middle : Nat
  high : Nat
  closed : Bool
  num : Nat
  den : Nat

def Binary.interval (format : Format) (x : Binary) : Interval :=
  let middle := 4 * x.mantissa
  let binadeStart := decide (x.mantissa = Nat.pow 2 (format.precision - 1)) &&
    decide (format.least < x.exponent)
  { low := if binadeStart then middle - 1 else middle - 2
    middle := middle
    high := middle + 2
    closed := decide (x.mantissa % 2 = 0)
    num := powerOfTwo (x.exponent - 2)
    den := powerOfTwo (2 - x.exponent) }

/-- Whether the decimal `n * 10 ^ exponent` lies in the interval. -/
def Interval.contains (i : Interval) (n : Nat) (exponent : Int) : Bool :=
  let scaled := n * powerOfTen exponent * i.den
  let unit := i.num * powerOfTen (-exponent)
  if i.closed then decide (i.low * unit ≤ scaled) && decide (scaled ≤ i.high * unit)
  else decide (i.low * unit < scaled) && decide (scaled < i.high * unit)

/-- The nearer of the two neighbours that lie in the interval on the grid of step `10 ^ exponent`.
-/
def Interval.pick? (i : Interval) (tie : Tie) (exponent : Int) : Option Nat :=
  let value := i.middle * i.num * powerOfTen (-exponent)
  let step := i.den * powerOfTen exponent
  let below := value / step
  let above := below + 1
  match i.contains below exponent, i.contains above exponent with
  | true, true =>
    let twice := 2 * (value % step)
    if twice < step then some below
    else if step < twice then some above
    else match tie with
      | .up => some above
      | .toEven => some (if below % 2 = 0 then below else above)
  | true, false => some below
  | false, true => some above
  | false, false => none

/-- Seventeen digits tell any two numbers of the formats apart. -/
def mostDigits : Nat := 17

def Binary.shortest (format : Format) (tie : Tie) (x : Binary) : Digits :=
  let i := x.interval format
  let point := decimalPoint (i.middle * i.num) i.den
  let attempt (count : Nat) : Option (Nat × Int) :=
    let exponent := point - (count + 1 : Int)
    (i.pick? tie exponent).map (·, exponent)
  match (List.range mostDigits).findSome? attempt with
  | none => ⟨[], 0⟩
  | some (n, exponent) =>
    let digits := Nat.toDigits 10 n
    ⟨(digits.reverse.dropWhile (· == '0')).reverse, exponent + (digits.length : Int)⟩

/-- How numbers of a format are written. Outside the positions from `from` to `upTo` of the point
the exponent is written apart. -/
structure Layout where
  format : Format
  tie : Tie
  positional : Option (Int × Int)
  wholeMark : String
  deriving DecidableEq, Repr

namespace Layout

def zeros (count : Int) : List Char := List.replicate count.toNat '0'

def isPositional (layout : Layout) (point : Int) : Bool :=
  match layout.positional with
  | none => true
  | some (least, most) => decide (least ≤ point) && decide (point ≤ most)

def positionalText (layout : Layout) (d : Digits) : String :=
  if d.point ≤ 0 then
    String.ofList ('0' :: '.' :: zeros (-d.point) ++ d.digits)
  else if (d.digits.length : Int) ≤ d.point then
    String.ofList (d.digits ++ zeros (d.point - d.digits.length)) ++ layout.wholeMark
  else
    String.ofList (d.digits.take d.point.toNat ++ '.' :: d.digits.drop d.point.toNat)

def exponentText (d : Digits) : String :=
  let fraction := match d.digits.tail with
    | [] => []
    | rest => '.' :: rest
  String.ofList (d.digits.take 1 ++ fraction) ++ "e" ++ toString (d.point - 1)

def magnitude (layout : Layout) (x : Binary) : String :=
  if x.isZero then "0" ++ layout.wholeMark
  else
    let digits := x.shortest layout.format layout.tie
    if layout.isPositional digits.point then layout.positionalText digits else exponentText digits

def text (layout : Layout) (x : Binary) : String :=
  (if x.negative then "-" else "") ++ layout.magnitude x

end Layout

end FleetSearch.Decimal
