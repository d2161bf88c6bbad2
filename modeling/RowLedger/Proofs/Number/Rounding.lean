import Mathlib.Tactic.Ring
import RowLedger.Proofs.Number.Value

/-!
The pattern nearest to a fraction. A pattern is the number of steps of the last place that are
taken, counted upwards across exponents, and rounding chooses the nearest number of steps.
-/

namespace RowLedger.Binary

/-- A whole number nearest to `w`, an even one in the middle between two. -/
structure Nearest (w : ℚ) (q : ℕ) : Prop where
  low : q - 1 / 2 ≤ w
  high : w ≤ q + 1 / 2
  even : w = q - 1 / 2 ∨ w = q + 1 / 2 → q % 2 = 0

theorem Nearest.eq_of_natCast {n q : ℕ} (h : Nearest n q) : q = n := by
  have hlow := h.low
  have hhigh := h.high
  have h₁ : (q : ℚ) < n + 1 := by linarith
  have h₂ : (n : ℚ) < q + 1 := by linarith
  have h₁ : q < n + 1 := by exact_mod_cast h₁
  have h₂ : n < q + 1 := by exact_mod_cast h₂
  omega

theorem Nearest.le_of_natCast_le {w : ℚ} {n q : ℕ} (h : Nearest w q) (hw : n ≤ w) : n ≤ q := by
  have hhigh := h.high
  have : (n : ℚ) < q + 1 := by linarith
  have : n < q + 1 := by exact_mod_cast this
  omega

theorem Nearest.le_of_lt_natCast {w : ℚ} {n q : ℕ} (h : Nearest w q) (hw : w < n) : q ≤ n := by
  have hlow := h.low
  have : (q : ℚ) < n + 1 := by linarith
  have : q < n + 1 := by exact_mod_cast this
  omega

theorem nearest_nearestEven (num : ℕ) {den : ℕ} (hden : 0 < den) :
    Nearest (num / den : ℚ) (nearestEven num den) := by
  have hpos : (0 : ℚ) < den := by exact_mod_cast hden
  have hsplit : (num : ℚ) = den * (num / den : ℕ) + (num % den : ℕ) := by
    exact_mod_cast (Nat.div_add_mod num den).symm
  have hw : (num / den : ℚ) = (num / den : ℕ) + (num % den : ℕ) / den := by
    rw [div_eq_iff hpos.ne', add_mul, div_mul_cancel₀ _ hpos.ne', mul_comm]
    exact hsplit
  -- the part that is left of the quotient, against a half
  have hrest : ((num % den : ℕ) / den : ℚ) < 1 := by
    rw [div_lt_one hpos]
    exact_mod_cast Nat.mod_lt num hden
  have hnonneg : (0 : ℚ) ≤ (num % den : ℕ) / den := by positivity
  have hhalf : ((num % den : ℕ) / den : ℚ) < 1 / 2 ↔ 2 * (num % den) < den := by
    rw [div_lt_div_iff₀ hpos two_pos, one_mul, mul_comm]
    norm_cast
  have hhalf' : 1 / 2 < ((num % den : ℕ) / den : ℚ) ↔ den < 2 * (num % den) := by
    rw [div_lt_div_iff₀ two_pos hpos, one_mul, mul_comm]
    norm_cast
  have hsucc : ((num / den + 1 : ℕ) : ℚ) = (num / den : ℕ) + 1 := Nat.cast_succ _
  rw [hw]
  generalize ((num % den : ℕ) / den : ℚ) = r at hrest hnonneg hhalf hhalf'
  unfold nearestEven
  dsimp only
  split
  · next h =>
    have := hhalf.2 h
    exact ⟨by linarith, by linarith, fun h => h.elim (by intro; linarith) (by intro; linarith)⟩
  · next h =>
    have hle : ¬r < 1 / 2 := fun hr => h (hhalf.1 hr)
    split
    · next h' =>
      have := hhalf'.2 h'
      exact ⟨by linarith, by linarith, fun h => h.elim (by intro; linarith) (by intro; linarith)⟩
    · next h' =>
      have hge : ¬1 / 2 < r := fun hr => h' (hhalf'.1 hr)
      split
      · next heven => exact ⟨by linarith, by linarith, fun _ => heven⟩
      · next hodd => exact ⟨by linarith, by linarith, fun _ => by omega⟩

/-! The exponent of a fraction. -/

theorem two_zpow_le_div_iff {num den : ℕ} (hden : 0 < den) (e : ℤ) :
    (2 : ℚ) ^ e ≤ num / den ↔ den * Nat.pow 2 e.toNat ≤ num * Nat.pow 2 (-e).toNat := by
  have hpos : (0 : ℚ) < den := by exact_mod_cast hden
  have hpow : (0 : ℚ) < (Nat.pow 2 (-e).toNat : ℕ) := by exact_mod_cast Nat.pow_pos two_pos
  have he := zpow_eq_div 2 e
  rw [Nat.cast_ofNat] at he
  rw [he, div_le_div_iff₀ hpow hpos, mul_comm (Nat.cast _) (den : ℚ)]
  norm_cast

/-- Powers of two in a row around a positive fraction. -/
theorem log2Fraction_spec {num den : ℕ} (hnum : num ≠ 0) (hden : 0 < den) :
    (2 : ℚ) ^ log2Fraction num den ≤ num / den ∧
      (num / den : ℚ) < 2 ^ (log2Fraction num den + 1) := by
  have hpos : (0 : ℚ) < den := by exact_mod_cast hden
  -- the logarithms of both sides leave two candidates
  have hnum₁ : (2 : ℚ) ^ num.log2 ≤ num := by exact_mod_cast Nat.log2_self_le hnum
  have hnum₂ : (num : ℚ) < 2 ^ (num.log2 + 1) := by exact_mod_cast Nat.lt_log2_self
  have hden₁ : (2 : ℚ) ^ den.log2 ≤ den := by exact_mod_cast Nat.log2_self_le hden.ne'
  have hden₂ : (den : ℚ) < 2 ^ (den.log2 + 1) := by exact_mod_cast Nat.lt_log2_self
  have hlow : (2 : ℚ) ^ ((num.log2 : ℤ) - den.log2 - 1) ≤ num / den := by
    rw [le_div_iff₀ hpos, sub_sub, zpow_sub₀ two_ne_zero, div_mul_eq_mul_div,
      div_le_iff₀ (by positivity)]
    have := mul_le_mul hnum₁ hden₂.le hpos.le (Nat.cast_nonneg _)
    exact_mod_cast this
  have hhigh : (num / den : ℚ) < 2 ^ ((num.log2 : ℤ) - den.log2 + 1) := by
    rw [div_lt_iff₀ hpos, sub_add_eq_add_sub, zpow_sub₀ two_ne_zero, div_mul_eq_mul_div,
      lt_div_iff₀ (by positivity)]
    have := mul_lt_mul hnum₂ hden₁ (by positivity) (by positivity)
    exact_mod_cast this
  unfold log2Fraction
  dsimp only
  split
  · next h => exact ⟨(two_zpow_le_div_iff hden _).2 h, hhigh⟩
  · next h =>
    refine ⟨hlow, ?_⟩
    rw [sub_add_cancel]
    exact not_le.1 fun hle => h ((two_zpow_le_div_iff hden _).1 hle)

/-! Patterns by the number of their steps. -/

variable {f : Format}

section

variable {n : ℕ} (hn : n < 2 ^ (f.fraction + f.exponent)) (negative : Bool)
include hn

theorem toNat_bits_ofMagnitude :
    (ofMagnitude f negative n).bits.toNat =
      n + if negative then 2 ^ (f.fraction + f.exponent) else 0 := by
  have hwidth : 2 ^ f.width = 2 * 2 ^ (f.fraction + f.exponent) := Nat.pow_succ'
  unfold ofMagnitude
  rw [BitVec.toNat_ofNat, hwidth]
  apply Nat.mod_eq_of_lt
  simp only [Nat.pow_eq]
  split <;> omega

theorem magnitude_ofMagnitude : (ofMagnitude f negative n).magnitude = n := by
  rw [magnitude, toNat_bits_ofMagnitude hn]
  cases negative with
  | false => exact Nat.mod_eq_of_lt hn
  | true => exact (Nat.add_mod_right _ _).trans (Nat.mod_eq_of_lt hn)

theorem isNegative_ofMagnitude : (ofMagnitude f negative n).isNegative = negative := by
  rw [isNegative, toNat_bits_ofMagnitude hn]
  cases negative with
  | false => exact decide_eq_false (Nat.not_le.2 hn)
  | true => exact decide_eq_true (Nat.le_add_left _ _)

end

/-! Without their sign, patterns of one magnitude are the same. -/

theorem magnitude_lt (x : Binary f) : x.magnitude < 2 ^ (f.fraction + f.exponent) :=
  Nat.mod_lt _ (Nat.two_pow_pos _)

theorem magnitude_neg (x : Binary f) : x.neg.magnitude = x.magnitude :=
  magnitude_ofMagnitude x.magnitude_lt _

theorem isNegative_neg (x : Binary f) : x.neg.isNegative = !x.isNegative :=
  isNegative_ofMagnitude x.magnitude_lt _

theorem size_congr {x y : Binary f} (h : x.magnitude = y.magnitude) : x.size = y.size := by
  unfold size significand exponent field
  rw [h]

theorem infinity_lt : f.infinity < 2 ^ (f.fraction + f.exponent) := by
  have hpos : 0 < 2 ^ f.fraction := Nat.two_pow_pos _
  have hexp : 0 < 2 ^ f.exponent := Nat.two_pow_pos _
  rw [Nat.pow_add, Nat.mul_comm, Format.infinity]
  exact Nat.mul_lt_mul_of_pos_right (Nat.sub_lt hexp one_pos) hpos

variable {x : Binary f} {k q : ℕ}

/-- Steps past the significand are steps of the next exponent. -/
theorem steps_cases (hx : x.magnitude = k * 2 ^ f.fraction + q) (hq : q ≤ 2 ^ (f.fraction + 1))
    (hk : k = 0 ∨ 2 ^ f.fraction ≤ q) :
    (q < 2 ^ (f.fraction + 1) ∧ x.significand = q ∧ x.exponent = f.leastExponent + k ∧
        x.field ≤ k + 1) ∨
      (q = 2 ^ (f.fraction + 1) ∧ x.significand = 2 ^ f.fraction ∧
        x.exponent = f.leastExponent + k + 1 ∧ 1 < x.field) := by
  have hpos : 0 < 2 ^ f.fraction := Nat.two_pow_pos _
  have hnext : 2 ^ (f.fraction + 1) = 2 * 2 ^ f.fraction := Nat.pow_succ'
  have hfield : x.field = x.magnitude / 2 ^ f.fraction := rfl
  have hsignificand : x.significand =
      x.magnitude % 2 ^ f.fraction + if x.field = 0 then 0 else 2 ^ f.fraction := rfl
  have hexponent : x.exponent = f.leastExponent + (x.field - 1 : ℕ) := rfl
  rw [hnext] at hq ⊢
  rw [hx, Nat.mul_comm] at hfield hsignificand
  rw [Nat.mul_add_mod] at hsignificand
  rw [Nat.mul_add_div hpos] at hfield
  rcases lt_or_ge q (2 ^ f.fraction) with hlt | hge
  · obtain rfl : k = 0 := hk.resolve_right (Nat.not_le.2 hlt)
    rw [Nat.div_eq_of_lt hlt] at hfield
    rw [Nat.mod_eq_of_lt hlt, if_pos hfield] at hsignificand
    refine .inl ⟨by omega, hsignificand, ?_, by omega⟩
    rw [hexponent, hfield]
  · obtain ⟨r, rfl⟩ := Nat.exists_eq_add_of_le hge
    rw [Nat.add_div_left _ hpos] at hfield
    have hne : x.field ≠ 0 := by
      rw [hfield]
      exact Nat.succ_ne_zero _
    rw [Nat.add_mod_left, if_neg hne] at hsignificand
    rcases lt_or_eq_of_le (show r ≤ 2 ^ f.fraction by omega) with hr | rfl
    · rw [Nat.div_eq_of_lt hr] at hfield
      rw [Nat.mod_eq_of_lt hr] at hsignificand
      refine .inl ⟨by omega, by omega, ?_, by omega⟩
      rw [hexponent, hfield]
      omega
    · rw [Nat.div_self hpos] at hfield
      rw [Nat.mod_self] at hsignificand
      refine .inr ⟨by omega, by omega, ?_, by omega⟩
      rw [hexponent, hfield]
      omega

theorem size_of_steps (hx : x.magnitude = k * 2 ^ f.fraction + q) (hq : q ≤ 2 ^ (f.fraction + 1))
    (hk : k = 0 ∨ 2 ^ f.fraction ≤ q) : x.size = q * 2 ^ (f.leastExponent + k) := by
  obtain ⟨-, hsignificand, hexponent, -⟩ | ⟨rfl, hsignificand, hexponent, -⟩ :=
    steps_cases hx hq hk
  · rw [size, hsignificand, hexponent]
  · rw [size, hsignificand, hexponent, zpow_add_one₀ two_ne_zero]
    push_cast
    ring

/-! Rounding a fraction. -/

/-- The steps that are nearest to a size, counted from the exponent where the size has its
significand. -/
structure Steps (f : Format) (v : ℚ) (k q : ℕ) : Prop where
  nearest : Nearest (v / 2 ^ (f.leastExponent + k)) q
  low : k = 0 ∨ 2 ^ f.fraction ≤ v / 2 ^ (f.leastExponent + k)
  high : v / 2 ^ (f.leastExponent + k) < 2 ^ (f.fraction + 1)

namespace Steps

variable {v : ℚ}

theorem le (h : Steps f v k q) : q ≤ 2 ^ (f.fraction + 1) :=
  h.nearest.le_of_lt_natCast (by exact_mod_cast h.high)

theorem ge (h : Steps f v k q) : k = 0 ∨ 2 ^ f.fraction ≤ q :=
  h.low.imp_right fun hlow => h.nearest.le_of_natCast_le (by exact_mod_cast hlow)

end Steps

theorem exists_steps {num den : ℕ} (hnum : num ≠ 0) (hden : 0 < den) (negative : Bool) :
    ∃ k q, Steps f (num / den) k q ∧ ofFraction f negative num den =
      ofMagnitude f negative (min f.infinity (k * 2 ^ f.fraction + q)) := by
  obtain ⟨hlow, hhigh⟩ := log2Fraction_spec hnum hden
  let e : ℤ := max f.leastExponent (log2Fraction num den - f.fraction)
  have hk : f.leastExponent + ((e - f.leastExponent).toNat : ℤ) = e := by omega
  have hpow : (0 : ℚ) < 2 ^ e := by positivity
  have hscaled : (num / den / 2 ^ e : ℚ) =
      (num * Nat.pow 2 (-e).toNat : ℕ) / (den * Nat.pow 2 e.toNat : ℕ) := by
    have he := zpow_eq_div 2 e
    rw [Nat.cast_ofNat] at he
    rw [he, div_div_div_eq]
    push_cast
    rfl
  refine ⟨(e - f.leastExponent).toNat, _, ⟨?_, ?_, ?_⟩, if_neg hnum⟩
  · rw [hk, hscaled]
    exact nearest_nearestEven _ (Nat.mul_pos hden (Nat.pow_pos two_pos))
  · rw [hk, le_div_iff₀ hpow, ← zpow_natCast, ← zpow_add₀ two_ne_zero]
    rcases le_total (log2Fraction num den - f.fraction) f.leastExponent with hle | hle
    · exact .inl (by omega)
    · refine .inr (le_of_eq_of_le ?_ hlow)
      congr 1
      omega
  · rw [hk, div_lt_iff₀ hpow, ← zpow_natCast, ← zpow_add₀ two_ne_zero]
    refine hhigh.trans_le (zpow_le_zpow_right₀ one_le_two ?_)
    push_cast
    omega

end RowLedger.Binary
