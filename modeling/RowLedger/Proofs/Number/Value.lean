import Mathlib.Algebra.Order.Field.Basic
import Mathlib.Algebra.Order.Field.Power
import Mathlib.Algebra.Order.Ring.Rat
import Mathlib.Data.Rat.Cast.Order
import Mathlib.Tactic.FieldSimp
import Mathlib.Tactic.Linarith
import Mathlib.Tactic.Positivity
import RowLedger.Number.Binary

/-! The number that a pattern denotes, and the fraction that stands for its size. -/

namespace RowLedger.Binary

variable {f : Format} {x : Binary f}

/-- The size of the number that a finite pattern denotes. -/
def size (x : Binary f) : ℚ := x.significand * 2 ^ x.exponent

/-- The number that a finite pattern denotes. -/
def number (x : Binary f) : ℚ := if x.isNegative then -x.size else x.size

/-- The number that a fraction stands for. -/
def Fraction.value (p : Fraction) : ℚ := p.1 / p.2

/-- A power with a whole exponent as a fraction of which one side is one. -/
theorem zpow_eq_div (b : ℕ) (e : ℤ) :
    (b : ℚ) ^ e = (Nat.pow b e.toNat : ℕ) / (Nat.pow b (-e).toNat : ℕ) := by
  rw [Nat.pow_eq, Nat.pow_eq]
  push_cast
  obtain ⟨n, rfl | rfl⟩ := e.eq_nat_or_neg
  · simp
  · simp

theorem value_scaled (m : ℕ) (e : ℤ) : Fraction.value (scaled m e) = m * 2 ^ e := by
  have hpow := zpow_eq_div 2 e
  rw [Nat.cast_ofNat] at hpow
  rw [hpow, ← mul_div_assoc, ← Nat.cast_mul]
  rfl

theorem value_toFraction (x : Binary f) : x.toFraction.value = x.size := value_scaled _ _

theorem den_toFraction_pos (x : Binary f) : 0 < x.toFraction.2 := Nat.pow_pos (by decide)

theorem size_nonneg (x : Binary f) : 0 ≤ x.size := by
  unfold size
  positivity

theorem significand_eq_zero_iff : x.significand = 0 ↔ x.magnitude = 0 := by
  have hpos : 0 < Nat.pow 2 f.fraction := Nat.pow_pos two_pos
  unfold significand
  constructor
  · intro h
    obtain ⟨hmod, hfield⟩ := Nat.add_eq_zero_iff.1 h
    have hzero : x.field = 0 := by
      by_contra hne
      rw [if_neg hne] at hfield
      omega
    rw [field] at hzero
    rw [← Nat.div_add_mod x.magnitude (Nat.pow 2 f.fraction), hzero, hmod, Nat.mul_zero]
  · intro h
    rw [field, h, Nat.zero_mod, Nat.zero_div, if_pos rfl]

theorem size_eq_zero_iff : x.size = 0 ↔ x.magnitude = 0 := by
  rw [size, mul_eq_zero, or_iff_left (zpow_ne_zero _ two_ne_zero), Nat.cast_eq_zero]
  exact significand_eq_zero_iff

/-- A size is a whole number if its fraction can be divided out. -/
theorem size_eq_natCast_iff {n : ℕ} :
    x.size = n ↔ x.toFraction.1 % x.toFraction.2 = 0 ∧ x.toFraction.1 / x.toFraction.2 = n := by
  have hpos := x.den_toFraction_pos
  have hden : (x.toFraction.2 : ℚ) ≠ 0 := by exact_mod_cast hpos.ne'
  rw [← value_toFraction, Fraction.value, div_eq_iff hden]
  constructor
  · intro h
    have hnum : x.toFraction.1 = n * x.toFraction.2 := by exact_mod_cast h
    rw [hnum]
    exact ⟨Nat.mul_mod_left _ _, Nat.mul_div_cancel _ hpos⟩
  · intro ⟨hmod, hdiv⟩
    have hnum : x.toFraction.1 = n * x.toFraction.2 := by
      rw [← hdiv, Nat.div_mul_cancel (Nat.dvd_of_mod_eq_zero hmod)]
    exact_mod_cast hnum

theorem number_eq_intCast_iff {n : ℤ} :
    x.number = n ↔
      x.size = n.natAbs ∧ (if x.isNegative then -(n.natAbs : ℤ) else n.natAbs) = n := by
  have hnonneg := x.size_nonneg
  rw [number, Nat.cast_natAbs, Int.cast_abs]
  cases x.isNegative with
  | false =>
    simp only [Bool.false_eq_true, if_false]
    constructor
    · intro h
      rw [← h, abs_of_nonneg hnonneg]
      have : (0 : ℚ) ≤ n := by rwa [← h]
      exact ⟨rfl, Int.natAbs_of_nonneg (by exact_mod_cast this)⟩
    · intro ⟨h, hn⟩
      rw [h, abs_of_nonneg (by exact_mod_cast (by omega : 0 ≤ n))]
  | true =>
    simp only [if_true]
    constructor
    · intro h
      have : (n : ℚ) ≤ 0 := by rw [← h]; exact neg_nonpos.2 hnonneg
      have hn : n ≤ 0 := by exact_mod_cast this
      exact ⟨by rw [abs_of_nonpos this, ← h, neg_neg], by omega⟩
    · intro ⟨h, hn⟩
      rw [h, abs_of_nonpos (by exact_mod_cast (by omega : n ≤ 0)), neg_neg]

/-- The whole number of a pattern is the number that it denotes. -/
theorem toInt?_eq_some_iff {n : ℤ} : x.toInt? = some n ↔ x.isFinite = true ∧ x.number = n := by
  rw [number_eq_intCast_iff, size_eq_natCast_iff]
  unfold toInt?
  cases x.isFinite with
  | false => simp
  | true =>
    simp only [Bool.not_true, Bool.false_eq_true, if_false, Option.ite_none_right_eq_some,
      Option.some.injEq, true_and]
    constructor
    · rintro ⟨hmod, rfl⟩
      have habs : (if x.isNegative then -((x.toFraction.1 / x.toFraction.2 : ℕ) : ℤ)
          else (x.toFraction.1 / x.toFraction.2 : ℕ)).natAbs
            = x.toFraction.1 / x.toFraction.2 := by
        split
        · rw [Int.natAbs_neg, Int.natAbs_natCast]
        · rw [Int.natAbs_natCast]
      rw [habs]
      exact ⟨⟨hmod, rfl⟩, rfl⟩
    · rintro ⟨⟨hmod, hdiv⟩, hsign⟩
      rw [hdiv]
      exact ⟨hmod, hsign⟩

end RowLedger.Binary
