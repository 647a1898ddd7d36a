/-! # Binary numbers

Finite numbers of a binary floating-point format, held exactly, and the rounding of a quotient of
whole numbers into a format: to the nearest number, of two equally near the one with the even
mantissa. -/
namespace FleetSearch.Decimal

/-- A format has mantissas of `precision` bits and unit exponents from `least` to `greatest`. -/
structure Format where
  precision : Nat
  least : Int
  greatest : Int
  deriving DecidableEq, Repr

def Format.double : Format := ⟨53, -1074, 971⟩

def Format.single : Format := ⟨24, -149, 104⟩

/-- The number `mantissa * 2 ^ exponent`, with a sign that zero has too. -/
structure Binary where
  negative : Bool
  mantissa : Nat
  exponent : Int
  deriving DecidableEq, Repr, Inhabited

/-- The quotient rounded to a whole number, a half to the even one. -/
def roundHalfEven (num den : Nat) : Nat :=
  let below := num / den
  let rest := num % den
  if 2 * rest < den then below
  else if den < 2 * rest then below + 1
  else below + below % 2

def powerOfTwo (exponent : Int) : Nat := Nat.pow 2 exponent.toNat

def powerOfTen (exponent : Int) : Nat := Nat.pow 10 exponent.toNat

/-- The exponent of the greatest power of two that is not above the positive quotient. -/
def binaryMagnitude (num den : Nat) : Int :=
  let guess : Int := (num.log2 : Int) - (den.log2 : Int)
  if num * powerOfTwo (-guess) < den * powerOfTwo guess then guess - 1 else guess

/-- The format's number nearest to a quotient; none where it would be beyond the greatest one. -/
def Format.round? (format : Format) (negative : Bool) (num den : Nat) : Option Binary :=
  if num = 0 then some ⟨negative, 0, format.least⟩
  else
    let fitting := binaryMagnitude num den - ((format.precision : Int) - 1)
    let exponent := if fitting < format.least then format.least else fitting
    let mantissa := roundHalfEven (num * powerOfTwo (-exponent)) (den * powerOfTwo exponent)
    let carried := decide (mantissa = Nat.pow 2 format.precision)
    let exponent := if carried then exponent + 1 else exponent
    let mantissa := if carried then Nat.pow 2 (format.precision - 1) else mantissa
    if exponent ≤ format.greatest then some ⟨negative, mantissa, exponent⟩ else none

namespace Binary

/-- The magnitude as a quotient of whole numbers. -/
def num (x : Binary) : Nat := x.mantissa * powerOfTwo x.exponent

def den (x : Binary) : Nat := powerOfTwo (-x.exponent)

def isZero (x : Binary) : Bool := decide (x.mantissa = 0)

def signed (x : Binary) (magnitude : Nat) : Int :=
  if x.negative then -(magnitude : Int) else (magnitude : Int)

/-- Both zeros are equal in this order. -/
def isBelow (x y : Binary) : Bool :=
  decide (x.signed (x.num * y.den) < y.signed (y.num * x.den))

/-- The product and the quotient, rounded into the format. -/
def mul? (format : Format) (x y : Binary) : Option Binary :=
  format.round? (x.negative != y.negative) (x.num * y.num) (x.den * y.den)

def div? (format : Format) (x y : Binary) : Option Binary :=
  format.round? (x.negative != y.negative) (x.num * y.den) (x.den * y.num)

end Binary

/-- The format's number nearest to a whole number. -/
def Format.ofInt? (format : Format) (n : Int) : Option Binary :=
  format.round? (decide (n < 0)) n.natAbs 1

/-- A number of a format, or an infinity that rounding ran into. -/
inductive Extended where
  | finite (x : Binary)
  | infinite (negative : Bool)
  deriving DecidableEq, Repr

namespace Extended

def isFinite : Extended → Bool
  | finite _ => true
  | infinite _ => false

def isBelow : Extended → Extended → Bool
  | finite x, finite y => x.isBelow y
  | finite _, infinite negative => !negative
  | infinite negative, finite _ => negative
  | infinite low, infinite high => low && !high

/-- Rounds into a format; what is beyond it becomes infinite. -/
def ofBinary (format : Format) (x : Binary) : Extended :=
  ((format.round? x.negative x.num x.den).map finite).getD (infinite x.negative)

def ofInt (format : Format) (n : Int) : Extended :=
  ((format.ofInt? n).map finite).getD (infinite (decide (n < 0)))

end Extended

end FleetSearch.Decimal
