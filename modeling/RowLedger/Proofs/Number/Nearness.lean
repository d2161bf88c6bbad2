import Mathlib.Algebra.Order.Ring.Pow
import Mathlib.Tactic.NormNum
import RowLedger.Proofs.Number.Rounding

/-!
How far roundings lead. Each rounding of a double moves a size by no more than a half of its last
place, so that a number of them in a row is a bound on the relative error; the bounds of factors and
terms add up.
-/

namespace RowLedger.Binary

/-- What a size keeps, at the least, when it is rounded. -/
def kept : ℚ := 1 - 1 / 2 ^ 53

theorem kept_pos : 0 < kept := by norm_num [kept]

theorem kept_le_one : kept ≤ 1 := by norm_num [kept]

theorem one_sub_le_kept_pow (k : ℕ) : 1 - k / 2 ^ 53 ≤ kept ^ k := by
  have hbernoulli := one_add_mul_le_pow (a := -(1 / 2 ^ 53 : ℚ)) (by norm_num) k
  rw [kept, sub_eq_add_neg 1 (1 / 2 ^ 53 : ℚ)]
  refine le_trans (le_of_eq ?_) hbernoulli
  ring

/-- Two sizes at most `k` roundings apart. -/
structure Near (k : ℕ) (v x : ℚ) : Prop where
  below : v * kept ^ k ≤ x
  above : x * kept ^ k ≤ v

namespace Near

variable {j k : ℕ} {v w x y : ℚ}

theorem refl (v : ℚ) : Near 0 v v := ⟨by simp, by simp⟩

theorem symm (h : Near k v x) : Near k x v := ⟨h.above, h.below⟩

theorem mono (h : Near j v x) (hjk : j ≤ k) (hv : 0 ≤ v) (hx : 0 ≤ x) : Near k v x := by
  have hpow : kept ^ k ≤ kept ^ j := pow_le_pow_of_le_one kept_pos.le kept_le_one hjk
  exact ⟨(mul_le_mul_of_nonneg_left hpow hv).trans h.below,
    (mul_le_mul_of_nonneg_left hpow hx).trans h.above⟩

theorem trans (h : Near j v w) (h' : Near k w x) : Near (j + k) v x := by
  have hj : 0 ≤ kept ^ j := pow_nonneg kept_pos.le j
  have hk : 0 ≤ kept ^ k := pow_nonneg kept_pos.le k
  constructor
  · rw [pow_add, ← mul_assoc]
    exact (mul_le_mul_of_nonneg_right h.below hk).trans h'.below
  · rw [pow_add, mul_comm (kept ^ j), ← mul_assoc]
    exact (mul_le_mul_of_nonneg_right h'.above hj).trans h.above

theorem nonneg (h : Near k v x) (hv : 0 ≤ v) : 0 ≤ x :=
  (mul_nonneg hv (pow_nonneg kept_pos.le k)).trans h.below

theorem pos (h : Near k v x) (hv : 0 < v) : 0 < x :=
  (mul_pos hv (pow_pos kept_pos k)).trans_le h.below

theorem mul (h : Near j v x) (h' : Near k w y) (hv : 0 ≤ v) (hw : 0 ≤ w) :
    Near (j + k) (v * w) (x * y) := by
  have hk : 0 ≤ kept ^ k := pow_nonneg kept_pos.le k
  constructor
  · rw [pow_add, mul_mul_mul_comm]
    exact mul_le_mul h.below h'.below (mul_nonneg hw hk) (h.nonneg hv)
  · rw [pow_add, mul_mul_mul_comm]
    exact mul_le_mul h.above h'.above (mul_nonneg (h'.nonneg hw) hk) hv

theorem div (h : Near j v x) (h' : Near k w y) (hv : 0 ≤ v) (hw : 0 < w) :
    Near (j + k) (v / w) (x / y) := by
  have hy : 0 < y := h'.pos hw
  have hk : 0 ≤ kept ^ k := pow_nonneg kept_pos.le k
  constructor
  · rw [pow_add, div_mul_eq_mul_div, ← mul_assoc, div_le_div_iff₀ hw hy, mul_assoc,
      mul_comm (kept ^ k)]
    exact mul_le_mul h.below h'.above (mul_nonneg hy.le hk) (h.nonneg hv)
  · rw [pow_add, div_mul_eq_mul_div, ← mul_assoc, div_le_div_iff₀ hy hw, mul_assoc,
      mul_comm (kept ^ k)]
    exact mul_le_mul h.above h'.below (mul_nonneg hw.le hk) hv

theorem add (h : Near k v x) (h' : Near k w y) : Near k (v + w) (x + y) := by
  constructor
  · rw [add_mul]
    exact add_le_add h.below h'.below
  · rw [add_mul]
    exact add_le_add h.above h'.above

/-- Few roundings are a small part of the greater one. -/
theorem abs_sub_le (h : Near k v x) (hv : 0 ≤ v) : |v - x| ≤ max v x * (k / 2 ^ 53) := by
  have hx := h.nonneg hv
  have hpow := one_sub_le_kept_pow k
  have hbelow := (mul_le_mul_of_nonneg_left hpow hv).trans h.below
  have habove := (mul_le_mul_of_nonneg_left hpow hx).trans h.above
  have hpart : (0 : ℚ) ≤ k / 2 ^ 53 := by positivity
  rw [abs_le]
  rcases le_total v x with hle | hle
  · rw [max_eq_right hle]
    have := mul_nonneg hx hpart
    constructor <;> linarith
  · rw [max_eq_left hle]
    have := mul_nonneg hv hpart
    constructor <;> linarith

end Near

/-- A size without extremes: nothing at all, or some `n` powers of two away from one. -/
def Moderate (n : ℕ) (v : ℚ) : Prop := v = 0 ∨ 1 / 2 ^ n ≤ v ∧ v ≤ 2 ^ n

namespace Moderate

variable {k m n : ℕ} {v w x : ℚ}

theorem nonneg (h : Moderate n v) : 0 ≤ v := by
  rcases h with rfl | ⟨h, -⟩
  · exact le_rfl
  · exact le_trans (by positivity) h

theorem le (h : Moderate n v) : v ≤ 2 ^ n := by
  rcases h with rfl | ⟨-, h⟩
  · positivity
  · exact h

theorem mono (h : Moderate m v) (hmn : m ≤ n) : Moderate n v := by
  have hpow : (2 : ℚ) ^ m ≤ 2 ^ n := pow_le_pow_right₀ one_le_two hmn
  refine h.imp_right fun ⟨hlow, hhigh⟩ => ⟨le_trans ?_ hlow, hhigh.trans hpow⟩
  exact one_div_le_one_div_of_le (by positivity) hpow

theorem natCast {a : ℕ} (h : a ≤ 2 ^ n) : Moderate n (a : ℚ) := by
  rcases Nat.eq_zero_or_pos a with rfl | hpos
  · exact .inl Nat.cast_zero
  · refine .inr ⟨?_, by exact_mod_cast h⟩
    have hone : (1 : ℚ) ≤ a := by exact_mod_cast hpos
    refine le_trans ?_ hone
    rw [div_le_one (by positivity)]
    exact one_le_pow₀ one_le_two

theorem mul (h : Moderate m v) (h' : Moderate n w) : Moderate (m + n) (v * w) := by
  rcases h with rfl | ⟨hlow, hhigh⟩
  · exact .inl (zero_mul w)
  rcases h' with rfl | ⟨hlow', hhigh'⟩
  · exact .inl (mul_zero v)
  have hw : 0 ≤ w := le_trans (by positivity) hlow'
  refine .inr ⟨?_, ?_⟩
  · rw [pow_add, one_div, mul_inv, ← one_div, ← one_div]
    exact mul_le_mul hlow hlow' (by positivity) (le_trans (by positivity) hlow)
  · rw [pow_add]
    exact mul_le_mul hhigh hhigh' hw (by positivity)

theorem inv (h : Moderate n v) : Moderate n v⁻¹ := by
  rcases h with rfl | ⟨hlow, hhigh⟩
  · exact .inl inv_zero
  have hv : 0 < v := lt_of_lt_of_le (by positivity) hlow
  refine .inr ⟨?_, ?_⟩
  · rw [one_div]
    exact inv_anti₀ hv hhigh
  · rw [one_div] at hlow
    exact (inv_le_comm₀ (by positivity) hv).1 hlow

theorem div (h : Moderate m v) (h' : Moderate n w) : Moderate (m + n) (v / w) :=
  div_eq_mul_inv v w ▸ h.mul h'.inv

theorem add (h : Moderate n v) (h' : Moderate n w) : Moderate (n + 1) (v + w) := by
  rcases h with rfl | ⟨hlow, hhigh⟩
  · rw [zero_add]
    exact h'.mono (Nat.le_succ n)
  have hw := h'.nonneg
  have hw' := h'.le
  refine .inr ⟨?_, ?_⟩
  · have hpow : (1 / 2 ^ (n + 1) : ℚ) ≤ 1 / 2 ^ n :=
      one_div_le_one_div_of_le (by positivity) (pow_le_pow_right₀ one_le_two (Nat.le_succ n))
    linarith
  · rw [pow_succ]
    linarith

/-- Roundings in between do not double a size. -/
theorem near (h : Moderate n v) (hx : Near k v x) (hk : k ≤ 2 ^ 52) : Moderate (n + 1) x := by
  have hhalf : 1 / 2 ≤ kept ^ k := by
    refine le_trans ?_ (one_sub_le_kept_pow k)
    have hk : (k : ℚ) ≤ 2 ^ 52 := by exact_mod_cast hk
    linarith
  have hx₀ := hx.nonneg h.nonneg
  have hbelow := (mul_le_mul_of_nonneg_left hhalf h.nonneg).trans hx.below
  have habove := (mul_le_mul_of_nonneg_left hhalf hx₀).trans hx.above
  rcases h with rfl | ⟨hlow, hhigh⟩
  · exact .inl (by linarith)
  · refine .inr ⟨?_, ?_⟩
    · rw [pow_succ, ← one_div_mul_one_div]
      linarith
    · rw [pow_succ]
      linarith

end Moderate

/-! Doubles that a moderate size is rounded to. -/

theorem leastExponent_double : Format.double.leastExponent = -1074 := by decide

theorem magnitude_ofFraction_zero (den : ℕ) (negative : Bool) :
    (ofFraction .double negative 0 den).magnitude = 0 :=
  magnitude_ofMagnitude (Nat.two_pow_pos _) negative

section

variable {num den : ℕ} (hden : 0 < den) (negative : Bool)
include hden

theorem ofFraction_eq_ofMagnitude (hnum : num ≠ 0) (hv : (num / den : ℚ) ≤ 2 ^ 1000) :
    ∃ k q, Steps .double (num / den) k q ∧ k * 2 ^ 52 + q < Format.double.infinity ∧
      ofFraction .double negative num den = ofMagnitude .double negative (k * 2 ^ 52 + q) := by
  obtain ⟨k, q, hsteps, hround⟩ := exists_steps (f := .double) hnum hden negative
  have hq : q ≤ 2 ^ 53 := hsteps.le
  have hk : k ≤ 2022 := by
    rcases hsteps.low with rfl | hlow
    · exact Nat.zero_le _
    · rw [le_div_iff₀ (by positivity), leastExponent_double, ← zpow_natCast,
        ← zpow_add₀ two_ne_zero] at hlow
      have hpow := hlow.trans hv
      rw [← zpow_natCast, zpow_le_zpow_iff_right₀ one_lt_two] at hpow
      simp only [Nat.cast_ofNat] at hpow
      omega
  have hinfinity : Format.double.infinity = 2047 * 2 ^ 52 := rfl
  have hfinite : k * 2 ^ 52 + q < Format.double.infinity := by
    rw [hinfinity]
    omega
  refine ⟨k, q, hsteps, hfinite, ?_⟩
  rw [hround]
  exact congrArg _ (min_eq_right hfinite.le)

theorem isNegative_ofFraction : (ofFraction .double negative num den).isNegative = negative := by
  rcases Nat.eq_zero_or_pos num with rfl | hnum
  · exact isNegative_ofMagnitude (Nat.two_pow_pos _) negative
  · obtain ⟨k, q, -, hround⟩ := exists_steps (f := .double) hnum.ne' hden negative
    rw [hround]
    exact isNegative_ofMagnitude ((min_le_left _ _).trans_lt infinity_lt) negative

/-- The steps that a moderate fraction is rounded to, with the size that they make. -/
theorem exists_size_ofFraction (hnum : num ≠ 0) (hv : (num / den : ℚ) ≤ 2 ^ 1000) :
    ∃ k q : ℕ, Steps .double (num / den) k q ∧
      (ofFraction .double negative num den).magnitude = k * 2 ^ 52 + q ∧
      (ofFraction .double negative num den).isFinite = true ∧
      (ofFraction .double negative num den).size = q * 2 ^ (-1074 + k : ℤ) := by
  obtain ⟨k, q, hsteps, hfinite, hround⟩ := ofFraction_eq_ofMagnitude hden negative hnum hv
  have hmagnitude := magnitude_ofMagnitude (hfinite.trans infinity_lt) negative
  rw [hround]
  refine ⟨k, q, hsteps, hmagnitude, ?_, ?_⟩
  · rw [isFinite, hmagnitude]
    exact decide_eq_true hfinite
  · rw [size_of_steps hmagnitude hsteps.le hsteps.ge, leastExponent_double]

omit hden in
/-- A size that is no extreme has all the places of its significand. -/
theorem Steps.places {v : ℚ} {k q : ℕ} (h : Steps .double v k q) (hv : 1 / 2 ^ 1000 ≤ v) :
    (2 ^ 52 : ℕ) ≤ v / 2 ^ (-1074 + k : ℤ) := by
  rcases h.low with rfl | hlow
  · rw [le_div_iff₀ (by positivity), Nat.cast_pow, Nat.cast_ofNat, ← zpow_natCast,
      ← zpow_add₀ two_ne_zero]
    refine le_trans ?_ hv
    rw [one_div, ← zpow_natCast, ← zpow_neg]
    exact zpow_le_zpow_right₀ one_le_two (by decide)
  · exact_mod_cast hlow

theorem near_ofFraction (hv : Moderate 1000 (num / den : ℚ)) :
    (ofFraction .double negative num den).isFinite = true ∧
      Near 1 (num / den) (ofFraction .double negative num den).size := by
  rcases Nat.eq_zero_or_pos num with rfl | hnum
  · have hmagnitude := magnitude_ofFraction_zero den negative
    refine ⟨by rw [isFinite, hmagnitude]; rfl, ?_⟩
    rw [size_eq_zero_iff.2 hmagnitude]
    constructor <;> simp
  have hpos : (0 : ℚ) < num / den := by
    have := hden
    positivity
  obtain ⟨hlow, hhigh⟩ := hv.resolve_left hpos.ne'
  obtain ⟨k, q, hsteps, -, hfinite, hsize⟩ := exists_size_ofFraction hden negative hnum.ne' hhigh
  refine ⟨hfinite, ?_⟩
  have hpow : (0 : ℚ) < 2 ^ (-1074 + k : ℤ) := by positivity
  have hplaces := hsteps.places hlow
  have hnearest := hsteps.nearest
  have hq : (2 ^ 52 : ℚ) ≤ q := by exact_mod_cast hnearest.le_of_natCast_le hplaces
  rw [leastExponent_double] at hnearest
  have hbelow := hnearest.low
  have habove := hnearest.high
  rw [hsize]
  push_cast at hplaces
  generalize (num / den : ℚ) = v at *
  constructor
  · rw [← div_le_iff₀ hpow, pow_one, kept, mul_div_right_comm]
    linarith
  · rw [mul_right_comm, ← le_div_iff₀ hpow, pow_one, kept]
    linarith

/-- A size with few places is met. -/
theorem size_ofFraction_exact {j : ℕ} {i : ℤ} (hv : (num / den : ℚ) = j * 2 ^ i)
    (hj : j < 2 ^ 53) (hi : -1074 ≤ i) (hle : (num / den : ℚ) ≤ 2 ^ 1000) :
    (ofFraction .double negative num den).size = num / den := by
  rcases Nat.eq_zero_or_pos num with rfl | hnum
  · rw [size_eq_zero_iff.2 (magnitude_ofFraction_zero den negative)]
    simp
  obtain ⟨k, q, hsteps, -, -, hsize⟩ := exists_size_ofFraction hden negative hnum.ne' hle
  have hpow : (0 : ℚ) < 2 ^ (-1074 + k : ℤ) := by positivity
  have hscaled : (num / den / 2 ^ (-1074 + k : ℤ) : ℚ) = j * 2 ^ (i - (-1074 + k)) := by
    rw [hv, zpow_sub₀ two_ne_zero, mul_div_assoc]
  have hlow := hsteps.low
  have hnearest := hsteps.nearest
  rw [leastExponent_double, hscaled] at hlow hnearest
  -- with less than a significand, the last place is no further up
  have hplace : -1074 + k ≤ i := by
    by_contra hlt
    have hlow := hlow.resolve_left (by omega)
    have hhalf : (2 : ℚ) ^ (i - (-1074 + k)) ≤ 1 / 2 := by
      rw [one_div, ← zpow_neg_one]
      exact zpow_le_zpow_right₀ one_le_two (by omega)
    have hj : (j : ℚ) < 2 ^ 53 := by exact_mod_cast hj
    have := mul_le_mul_of_nonneg_left hhalf (Nat.cast_nonneg j)
    have : (2 : ℚ) ^ 52 ≤ j * (1 / 2) := hlow.trans this
    linarith
  have hwhole : (j * 2 ^ (i - (-1074 + k)) : ℚ) = (j * 2 ^ (i - (-1074 + k)).toNat : ℕ) := by
    push_cast
    rw [← zpow_natCast, Int.toNat_of_nonneg (by omega)]
  rw [hwhole] at hnearest
  rw [hsize, hnearest.eq_of_natCast, ← hwhole, ← hscaled, div_mul_cancel₀ _ hpow.ne']

end

/-- A pattern that is what a size is rounded to, up to its sign. -/
def Rounded (v : ℚ) (x : Double) : Prop :=
  ∃ (negative : Bool) (num den : ℕ), 0 < den ∧ (num / den : ℚ) = v ∧
    x.magnitude = (ofFraction .double negative num den).magnitude

theorem rounded_ofInt (n : ℤ) : Rounded n.natAbs (ofInt .double n) :=
  ⟨decide (n < 0), n.natAbs, 1, one_pos, by simp, rfl⟩

/-! Arithmetic. -/

variable {x y : Double}

theorem near_ofInt {n : ℤ} (hn : Moderate 1000 (n.natAbs : ℚ)) :
    (ofInt .double n).isFinite = true ∧ Near 1 n.natAbs (ofInt .double n).size := by
  have hone : (n.natAbs / (1 : ℕ) : ℚ) = n.natAbs := by simp
  have h := near_ofFraction one_pos (decide (n < 0)) (hone ▸ hn)
  rwa [hone] at h

theorem size_ofInt_exact {n : ℤ} {i j : ℕ} (hn : n.natAbs = j * 2 ^ i) (hj : j < 2 ^ 53)
    (hmoderate : Moderate 1000 (n.natAbs : ℚ)) : (ofInt .double n).size = n.natAbs := by
  have hone : (n.natAbs / (1 : ℕ) : ℚ) = n.natAbs := by simp
  have hplaces : (n.natAbs / (1 : ℕ) : ℚ) = j * 2 ^ (i : ℤ) := by
    rw [hone, hn]
    push_cast
    rfl
  have hle := hmoderate.le
  rw [← hone] at hle
  exact (size_ofFraction_exact one_pos (decide (n < 0)) hplaces hj (by omega) hle).trans hone

theorem isNegative_ofInt (n : ℤ) : (ofInt .double n).isNegative = decide (n < 0) :=
  isNegative_ofFraction one_pos _

theorem near_addSizes (h : Moderate 1000 (x.size + y.size)) :
    Near 1 (x.size + y.size) (x.addSizes y).size := by
  have hx : (0 : ℚ) < x.toFraction.2 := by exact_mod_cast x.den_toFraction_pos
  have hy : (0 : ℚ) < y.toFraction.2 := by exact_mod_cast y.den_toFraction_pos
  have hsum : (((x.toFraction.1 * y.toFraction.2 + y.toFraction.1 * x.toFraction.2 : ℕ) : ℚ) /
      (x.toFraction.2 * y.toFraction.2 : ℕ)) = x.size + y.size := by
    rw [← value_toFraction x, ← value_toFraction y, Fraction.value, Fraction.value,
      div_add_div _ _ hx.ne' hy.ne']
    push_cast
    ring
  rw [← hsum] at h ⊢
  exact (near_ofFraction (Nat.mul_pos x.den_toFraction_pos y.den_toFraction_pos) false h).2

theorem value_mulSizes :
    (((x.toFraction.1 * y.toFraction.1 : ℕ) : ℚ) / (x.toFraction.2 * y.toFraction.2 : ℕ)) =
      x.size * y.size := by
  rw [← value_toFraction x, ← value_toFraction y, Fraction.value, Fraction.value,
    div_mul_div_comm]
  push_cast
  rfl

theorem near_mulSizes (h : Moderate 1000 (x.size * y.size)) :
    Near 1 (x.size * y.size) (x.mulSizes y).size := by
  rw [← value_mulSizes] at h ⊢
  exact (near_ofFraction (Nat.mul_pos x.den_toFraction_pos y.den_toFraction_pos) false h).2

theorem value_divSizes :
    (((x.toFraction.1 * y.toFraction.2 : ℕ) : ℚ) / (x.toFraction.2 * y.toFraction.1 : ℕ)) =
      x.size / y.size := by
  rw [← value_toFraction x, ← value_toFraction y, Fraction.value, Fraction.value,
    div_div_div_eq]
  push_cast
  rfl

theorem num_toFraction_pos (hy : y.size ≠ 0) : 0 < y.toFraction.1 := by
  apply Nat.pos_of_ne_zero
  intro hnum
  apply hy
  rw [← value_toFraction, Fraction.value, hnum, Nat.cast_zero, zero_div]

theorem near_divSizes (hy : y.size ≠ 0) (h : Moderate 1000 (x.size / y.size)) :
    (x.divSizes y).isFinite = true ∧ Near 1 (x.size / y.size) (x.divSizes y).size := by
  rw [← value_divSizes] at h ⊢
  exact near_ofFraction (Nat.mul_pos x.den_toFraction_pos (num_toFraction_pos hy)) false h

theorem rounded_divSizes (hy : y.size ≠ 0) : Rounded (x.size / y.size) (x.divSizes y) :=
  ⟨false, _, _, Nat.mul_pos x.den_toFraction_pos (num_toFraction_pos hy), value_divSizes, rfl⟩

/-- The whole number that a size is rounded to, a half going up. -/
def halfUp (x : Double) : ℕ := (2 * x.toFraction.1 + x.toFraction.2) / (2 * x.toFraction.2)

theorem roundSize_eq (x : Double) : x.roundSize = ofInt .double x.halfUp := by
  have hsign : decide ((x.halfUp : ℤ) < 0) = false := decide_eq_false (by omega)
  rw [ofInt, hsign]
  rfl

theorem halfUp_spec (x : Double) : (x.halfUp : ℚ) - 1 / 2 ≤ x.size ∧ x.size < x.halfUp + 1 / 2 := by
  have hpos : (0 : ℚ) < x.toFraction.2 := by exact_mod_cast x.den_toFraction_pos
  have hlow : (2 * x.toFraction.2 * x.halfUp : ℚ) ≤ 2 * x.toFraction.1 + x.toFraction.2 := by
    exact_mod_cast Nat.mul_div_le _ _
  have hhigh : (2 * x.toFraction.1 + x.toFraction.2 : ℚ) < 2 * x.toFraction.2 * (x.halfUp + 1) := by
    exact_mod_cast Nat.lt_mul_div_succ _ (Nat.mul_pos two_pos x.den_toFraction_pos)
  rw [← value_toFraction, Fraction.value, le_div_iff₀ hpos, div_lt_iff₀ hpos]
  constructor <;> linarith

/-- A size that is less than a half away from a whole number is rounded to it. -/
theorem halfUp_eq {n : ℕ} (h : |n - x.size| < 1 / 2) : x.halfUp = n := by
  obtain ⟨hlow, hhigh⟩ := x.halfUp_spec
  obtain ⟨hlow', hhigh'⟩ := abs_lt.1 h
  have h₁ : (x.halfUp : ℚ) < n + 1 := by linarith
  have h₂ : (n : ℚ) < x.halfUp + 1 := by linarith
  have h₁ : x.halfUp < n + 1 := by exact_mod_cast h₁
  have h₂ : n < x.halfUp + 1 := by exact_mod_cast h₂
  omega

theorem moderate_halfUp {n : ℕ} (h : Moderate n x.size) : Moderate (n + 1) (x.halfUp : ℚ) := by
  rcases Nat.eq_zero_or_pos x.halfUp with hzero | hpos
  · rw [hzero]
    exact .inl Nat.cast_zero
  have hlow := x.halfUp_spec.1
  have hone : (1 : ℚ) ≤ x.halfUp := by exact_mod_cast hpos
  have hpow : (1 : ℚ) ≤ 2 ^ n := one_le_pow₀ one_le_two
  have hle := h.le
  refine .inr ⟨le_trans ?_ hone, ?_⟩
  · rw [div_le_one (by positivity)]
    exact one_le_pow₀ one_le_two
  · rw [pow_succ]
    linarith

/-- A great size has only a small part below one. -/
theorem near_halfUp (h : 2 ^ 48 ≤ x.size) : Near 17 x.size x.halfUp := by
  obtain ⟨hlow, hhigh⟩ := x.halfUp_spec
  have hkept : kept ^ 17 ≤ 1 - 1 / 2 ^ 49 := by norm_num [kept]
  have hsize : (0 : ℚ) ≤ x.size := x.size_nonneg
  have hup : (0 : ℚ) ≤ x.halfUp := Nat.cast_nonneg _
  have h₁ := mul_le_mul_of_nonneg_left hkept hsize
  have h₂ := mul_le_mul_of_nonneg_left hkept hup
  constructor <;> linarith

end RowLedger.Binary
