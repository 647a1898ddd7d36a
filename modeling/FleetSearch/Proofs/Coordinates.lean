import FleetSearch.Geo
import FleetSearch.Proofs.Acceptance
import Mathlib.Algebra.Order.Field.Basic
import Mathlib.Algebra.Order.Ring.Rat
import Mathlib.Tactic.Ring

/-! # Coordinates

Singles are compared exactly, by whole products, and whole numbers up to 24 bits are singles. So a
coordinate passes its check exactly if it is finite and its value is within the bounds as they are
written. -/
namespace FleetSearch

namespace Decimal

/-! ## The order of binary numbers -/

/-- The quotient of the two powers, one of which is 1. -/
theorem powerOfTwo_div (exponent : Int) :
    (powerOfTwo exponent : ℚ) / powerOfTwo (-exponent) = 2 ^ exponent := by
  obtain ⟨n, rfl | rfl⟩ := exponent.eq_nat_or_neg <;> simp [powerOfTwo]

namespace Binary

def sign (x : Binary) : ℚ := if x.negative then -1 else 1

/-- The number itself. -/
def value (x : Binary) : ℚ := x.sign * (x.mantissa * 2 ^ x.exponent)

theorem signed_eq (x : Binary) (magnitude : Nat) : (x.signed magnitude : ℚ) = x.sign * magnitude := by
  unfold signed sign
  split <;> simp

theorem den_pos (x : Binary) : (0 : ℚ) < x.den := by
  simp [den, powerOfTwo]

theorem value_eq (x : Binary) : x.value = x.sign * x.num / x.den := by
  rw [value, ← powerOfTwo_div, num, den, Nat.cast_mul]
  ring

theorem isBelow_iff (x y : Binary) : x.isBelow y = true ↔ x.value < y.value := by
  calc x.isBelow y = true
      ↔ x.signed (x.num * y.den) < y.signed (y.num * x.den) := decide_eq_true_iff
    _ ↔ x.sign * x.num * y.den < y.sign * y.num * x.den := by
      rw [← Int.cast_lt (R := ℚ), signed_eq, signed_eq, Nat.cast_mul, Nat.cast_mul, mul_assoc,
        mul_assoc]
    _ ↔ x.value < y.value := by
      rw [value_eq, value_eq, div_lt_div_iff₀ x.den_pos y.den_pos]

end Binary

/-! ## Whole numbers -/

theorem roundHalfEven_one (num : Nat) : roundHalfEven num 1 = num := by
  simp [roundHalfEven, Nat.mod_one]

theorem binaryMagnitude_one {num : Nat} (positive : num ≠ 0) :
    binaryMagnitude num 1 = num.log2 := by
  have reached : ¬ num < 2 ^ num.log2 := Nat.not_lt.mpr (Nat.log2_self_le positive)
  have one : Nat.log2 1 = 0 := by decide
  simp [binaryMagnitude, powerOfTwo, one, reached]

/-- A number of few bits is its own mantissa, moved to the top. -/
theorem round?_whole {num : Nat} (positive : num ≠ 0) (small : num < 2 ^ 24) (negative : Bool) :
    Format.single.round? negative num 1 =
      some ⟨negative, num * 2 ^ (23 - num.log2), num.log2 - 23⟩ := by
  have bits : num.log2 < 24 := (Nat.log2_lt positive).mpr small
  have fitting : binaryMagnitude num 1 - ((Format.single.precision : Int) - 1) = num.log2 - 23 := by
    rw [binaryMagnitude_one positive]
    rfl
  have normal : ¬ ((num.log2 : Int) - 23 < Format.single.least) := by
    simp only [Format.single]
    omega
  have up : powerOfTwo (-((num.log2 : Int) - 23)) = 2 ^ (23 - num.log2) := by
    have exponent : (-((num.log2 : Int) - 23)).toNat = 23 - num.log2 := by omega
    rw [powerOfTwo, exponent, Nat.pow_eq]
  have down : powerOfTwo ((num.log2 : Int) - 23) = 1 := by
    have exponent : ((num.log2 : Int) - 23).toNat = 0 := by omega
    rw [powerOfTwo, exponent]
  -- Moving up keeps the bits of the number, so nothing is rounded and nothing is carried.
  have uncarried : num * 2 ^ (23 - num.log2) ≠ Nat.pow 2 Format.single.precision := by
    apply Nat.ne_of_lt
    calc num * 2 ^ (23 - num.log2)
        < 2 ^ (num.log2 + 1) * 2 ^ (23 - num.log2) :=
          Nat.mul_lt_mul_of_pos_right Nat.lt_log2_self (Nat.two_pow_pos _)
      _ = 2 ^ 24 := by
        rw [← Nat.pow_add]
        congr 1
        omega
  have held : (num.log2 : Int) - 23 ≤ Format.single.greatest := by
    simp only [Format.single]
    omega
  simp only [Format.round?, positive, if_false, fitting, normal, up, down, mul_one, roundHalfEven_one,
    uncarried, decide_false, Bool.false_eq_true, held, if_true]

/-- The single of a whole number of few bits has the value of the number. -/
theorem exists_ofInt_single {n : Int} (small : n.natAbs < 2 ^ 24) :
    ∃ x, Extended.ofInt .single n = .finite x ∧ x.value = n := by
  obtain rfl | present := eq_or_ne n 0
  · exact ⟨⟨false, 0, -149⟩, rfl, by simp [Binary.value]⟩
  · have positive : n.natAbs ≠ 0 := Int.natAbs_ne_zero.mpr present
    have bits : n.natAbs.log2 < 24 := (Nat.log2_lt positive).mpr small
    refine ⟨⟨decide (n < 0), n.natAbs * 2 ^ (23 - n.natAbs.log2), n.natAbs.log2 - 23⟩, ?_, ?_⟩
    · rw [Extended.ofInt, Format.ofInt?, round?_whole positive small]
      rfl
    · have moved : (2 : ℚ) ^ (23 - n.natAbs.log2) * 2 ^ ((n.natAbs.log2 : Int) - 23) = 1 := by
        have exponent : ((23 - n.natAbs.log2 : Nat) : Int) + (n.natAbs.log2 - 23) = 0 := by omega
        rw [← zpow_natCast, ← zpow_add₀ two_ne_zero, exponent, zpow_zero]
      have own : (if n < 0 then -1 else 1) * (n.natAbs : ℚ) = n := by
        obtain negative | whole := lt_or_ge n 0
        · rw [if_pos negative, Nat.cast_natAbs, abs_of_neg negative]
          simp
        · rw [if_neg (not_lt.mpr whole), Nat.cast_natAbs, abs_of_nonneg whole, one_mul]
      simp only [Binary.value, Binary.sign, decide_eq_true_eq, Nat.cast_mul, Nat.cast_pow,
        Nat.cast_ofNat, mul_assoc, moved, mul_one, own]

end Decimal

open Decimal (Binary Extended)

namespace Coordinate

/-- The values that a bound leaves. -/
def Within (bound : ℚ) (x : Binary) : Prop := -bound ≤ x.value ∧ x.value ≤ bound

/-- A coordinate passes exactly if it is there, finite and within the bounds: an infinite one is
beyond every bound. -/
theorem rules_hold_iff (bound : Nat) (small : bound < 2 ^ 24) (c : Option Coordinate) :
    (∀ rule ∈ rules bound c, rule = none) ↔ ∃ x, c = some (.finite x) ∧ Within bound x := by
  obtain ⟨low, lowest, low_value⟩ := Decimal.exists_ofInt_single (n := -bound) (by simpa using small)
  obtain ⟨high, highest, high_value⟩ := Decimal.exists_ofInt_single (n := bound) (by simpa using small)
  cases c with
  | none => simp [rules]
  | some found =>
    have both : (∀ rule ∈ rules bound (some found), rule = none) ↔
        found.isBelow (.finite low) = false ∧ (Extended.finite high).isBelow found = false := by
      simp [rules, lowest, highest, Rule.atLeastSingle, Rule.atMostSingle, Rule.failing_eq_none_iff]
    rw [both]
    cases found with
    | finite x =>
      simp [Extended.isBelow, ← Bool.not_eq_true, Binary.isBelow_iff, low_value, high_value, Within]
    | infinite negative => cases negative <;> simp [Extended.isBelow]

end Coordinate

end FleetSearch
