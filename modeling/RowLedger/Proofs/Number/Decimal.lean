import RowLedger.Number.Decimal
import RowLedger.Proofs.Number.Nearness

/-!
The double that is stored for a decimal: how near it is, and where it is the nearest there is.
-/

namespace RowLedger

open Binary (Near Moderate)

namespace Decimal

/-- The number that a decimal denotes. -/
def number (d : Decimal) : ℚ := d.mantissa / 10 ^ d.scale

def size (d : Decimal) : ℚ := d.mantissa.natAbs / 10 ^ d.scale

theorem size_nonneg (d : Decimal) : 0 ≤ d.size := by
  unfold size
  positivity

theorem number_eq (d : Decimal) : d.number = if d.mantissa < 0 then -d.size else d.size := by
  unfold number size
  split
  · next h =>
    rw [← neg_div, ← Int.cast_natCast, Int.natCast_natAbs, abs_of_neg h]
    push_cast
    rw [neg_neg]
  · next h =>
    rw [← Int.cast_natCast, Int.natCast_natAbs, abs_of_nonneg (not_lt.1 h)]

/-! The steps by which a size with places is stored. -/

/-- A whole number as a double. -/
abbrev whole (n : ℕ) : Double := Binary.ofInt .double n

section

variable (m s : ℕ)

/-- The part below one. -/
def part : Double := (whole (m % 10 ^ s)).divSizes (whole (10 ^ s))

/-- The mantissa again, in double arithmetic. -/
def scaledUp : Double :=
  ((whole (m / 10 ^ s)).addSizes (part m s)).mulSizes (whole (10 ^ s))

def storedSize : Double :=
  if (part m s).magnitude = 0 then whole (m / 10 ^ s)
  else (scaledUp m s).roundSize.divSizes (whole (10 ^ s))

end

theorem toDouble_eq (d : Decimal) :
    d.toDouble =
      if d.scale = 0 then Binary.ofInt .double d.mantissa
      else if d.mantissa < 0 then (storedSize d.mantissa.natAbs d.scale).neg
      else storedSize d.mantissa.natAbs d.scale := rfl

section

variable {m n s : ℕ}

theorem moderate_natAbs {i : ℤ} (hi : i.natAbs ≤ 2 ^ 99) : Moderate 1000 (i.natAbs : ℚ) :=
  (Moderate.natCast hi).mono (by decide)

theorem isFinite_whole (hn : n ≤ 2 ^ 99) : (whole n).isFinite = true :=
  (Binary.near_ofInt (moderate_natAbs (i := n) hn)).1

theorem near_whole (hn : n ≤ 2 ^ 99) :
    Near 1 n (whole n).size ∧ Moderate 100 (whole n).size := by
  have hnear := (Binary.near_ofInt (moderate_natAbs (i := n) hn)).2
  rw [Int.natAbs_natCast] at hnear
  exact ⟨hnear, (Moderate.natCast hn).near hnear (by decide)⟩

theorem unit_le (hs : s ≤ 28) : 10 ^ s ≤ 2 ^ 99 :=
  (Nat.pow_le_pow_right (by decide) hs).trans (by decide)

theorem div_unit_le (hm : m < 2 ^ 96) (s : ℕ) : m / 10 ^ s ≤ 2 ^ 99 :=
  (Nat.div_le_self m _).trans (hm.le.trans (by decide))

theorem mod_unit_le (m : ℕ) (hs : s ≤ 28) : m % 10 ^ s ≤ 2 ^ 99 :=
  (Nat.mod_lt m (by positivity)).le.trans (unit_le hs)

theorem unit_pos (hs : s ≤ 28) : 0 < (whole (10 ^ s)).size :=
  (near_whole (unit_le hs)).1.pos (by positivity)

theorem near_part (m : ℕ) (hs : s ≤ 28) :
    Near 1 ((whole (m % 10 ^ s)).size / (whole (10 ^ s)).size) (part m s).size ∧
      Moderate 201 (part m s).size := by
  have hmoderate := (near_whole (mod_unit_le m hs)).2.div (near_whole (unit_le hs)).2
  have hnear := (Binary.near_divSizes (unit_pos hs).ne' (hmoderate.mono (by decide))).2
  exact ⟨hnear, hmoderate.near hnear (by decide)⟩

section

variable (hm : m < 2 ^ 96) (hs : s ≤ 28)
include hm hs

/-- Three roundings lead from the mantissa, as its two parts are stored, to what is made of it. -/
theorem near_scaledUp :
    Near 3 ((whole (m / 10 ^ s)).size * (whole (10 ^ s)).size + (whole (m % 10 ^ s)).size)
        (scaledUp m s).size ∧
      Moderate 304 (scaledUp m s).size := by
  obtain ⟨-, hW⟩ := near_whole (div_unit_le hm s)
  obtain ⟨-, hU⟩ := near_whole (unit_le hs)
  obtain ⟨hpart, hP⟩ := near_part m hs
  have hunit := unit_pos hs
  -- the sum, and its product with the unit
  have hsum := (hW.mono (by decide : 100 ≤ 201)).add hP
  have hT := Binary.near_addSizes (hsum.mono (by decide))
  have hT' := hsum.near hT (by decide)
  have hproduct := hT'.mul hU
  have hQ := Binary.near_mulSizes (hproduct.mono (by decide))
  refine ⟨?_, hproduct.near hQ (by decide)⟩
  have hW₀ : Near 1 (whole (m / 10 ^ s)).size (whole (m / 10 ^ s)).size :=
    (Near.refl _).mono (by decide) hW.nonneg hW.nonneg
  have hscaled := (((hW₀.add hpart).trans hT).mul (.refl (whole (10 ^ s)).size)
    (add_nonneg hW.nonneg (div_nonneg (Binary.size_nonneg _) hunit.le)) hunit.le).trans hQ
  rwa [add_mul, div_mul_cancel₀ _ hunit.ne'] at hscaled

/-- The two parts of the mantissa are stored with a rounding each. -/
theorem near_scaledUp_mantissa : Near 5 m (scaledUp m s).size := by
  have hproduct := (near_whole (div_unit_le hm s)).1.mul (near_whole (unit_le hs)).1
    (Nat.cast_nonneg _) (Nat.cast_nonneg _)
  have hrest := (near_whole (mod_unit_le m hs)).1.mono (by decide : 1 ≤ 2) (Nat.cast_nonneg _)
    (Binary.size_nonneg _)
  have hparts := hproduct.add hrest
  have hsplit : ((m / 10 ^ s : ℕ) : ℚ) * (10 ^ s : ℕ) + (m % 10 ^ s : ℕ) = m := by
    exact_mod_cast Nat.div_add_mod' m (10 ^ s)
  rw [hsplit] at hparts
  exact hparts.trans (near_scaledUp hm hs).1

theorem near_halfUp_scaledUp : Near 22 m (scaledUp m s).halfUp := by
  have hnear := near_scaledUp_mantissa hm hs
  have hQ := (scaledUp m s).size_nonneg
  rcases le_or_gt (2 ^ 48) (scaledUp m s).size with hgreat | hsmall
  · exact hnear.trans (Binary.near_halfUp hgreat)
  · -- so little is lost of a small mantissa that it comes out again
    have hkept : 1 / 2 ≤ Binary.kept ^ 5 := by norm_num [Binary.kept]
    have hm₀ : (0 : ℚ) ≤ m := Nat.cast_nonneg m
    have hm₁ : (m : ℚ) ≤ 2 ^ 49 := by
      have := (mul_le_mul_of_nonneg_left hkept hm₀).trans hnear.below
      linarith
    have hdistance := hnear.abs_sub_le hm₀
    have hmax : max (m : ℚ) (scaledUp m s).size ≤ 2 ^ 49 := max_le hm₁ (by linarith)
    have hhalf : |(m : ℚ) - (scaledUp m s).size| < 1 / 2 := by
      norm_num at hdistance ⊢
      linarith
    rw [Binary.halfUp_eq hhalf]
    exact (Near.refl _).mono (by decide) hm₀ hm₀

end

/-- No part below one is stored only where there is none. -/
theorem mod_eq_zero_of_part (hs : s ≤ 28) (h : (part m s).magnitude = 0) : m % 10 ^ s = 0 := by
  by_contra hne
  have hpos : (0 : ℚ) < (m % 10 ^ s : ℕ) := by exact_mod_cast Nat.pos_of_ne_zero hne
  have hrest := (near_whole (mod_unit_le m hs)).1.pos hpos
  have hpart := (near_part m hs).1.pos (div_pos hrest (unit_pos hs))
  rw [Binary.size_eq_zero_iff.2 h] at hpart
  exact lt_irrefl _ hpart

theorem natCast_div_unit (h : m % 10 ^ s = 0) : ((m / 10 ^ s : ℕ) : ℚ) = m / 10 ^ s := by
  have hsplit : (m : ℚ) = (m / 10 ^ s : ℕ) * 10 ^ s := by
    exact_mod_cast (Nat.div_mul_cancel (Nat.dvd_of_mod_eq_zero h)).symm
  rw [hsplit, mul_div_cancel_right₀ _ (by positivity)]

/-- Without a part below one the whole part is all there is to round. -/
theorem near_storedSize_whole (hm : m < 2 ^ 96) (hs : s ≤ 28) (hpart : (part m s).magnitude = 0) :
    Near 1 (m / 10 ^ s) (storedSize m s).size := by
  have hnear := (near_whole (div_unit_le hm s)).1
  rw [natCast_div_unit (mod_eq_zero_of_part hs hpart)] at hnear
  rwa [storedSize, if_pos hpart]

theorem near_storedSize (hm : m < 2 ^ 96) (hs : s ≤ 28) :
    (storedSize m s).isFinite = true ∧ Near 25 (m / 10 ^ s) (storedSize m s).size := by
  by_cases hpart : (part m s).magnitude = 0
  · refine ⟨?_, (near_storedSize_whole hm hs hpart).mono (by decide) (by positivity)
      (Binary.size_nonneg _)⟩
    rw [storedSize, if_pos hpart]
    exact isFinite_whole (div_unit_le hm s)
  · have hmantissa := near_halfUp_scaledUp hm hs
    have hR := (Binary.moderate_halfUp (near_scaledUp hm hs).2)
    have hround := (Binary.near_ofInt (n := (scaledUp m s).halfUp)
      (by rw [Int.natAbs_natCast]; exact hR.mono (by decide))).2
    rw [Int.natAbs_natCast, ← Binary.roundSize_eq] at hround
    have hunit := (near_whole (unit_le hs))
    have hquotient := (hR.near hround (by decide)).div hunit.2
    obtain ⟨hfinite, hdiv⟩ := Binary.near_divSizes (unit_pos hs).ne' (hquotient.mono (by decide))
    have hnear := ((hmantissa.trans hround).div hunit.1 (Nat.cast_nonneg m) (by positivity)).trans
      hdiv
    push_cast at hnear
    rw [storedSize, if_neg hpart]
    exact ⟨hfinite, hnear⟩

theorem isNegative_storedSize (m : ℕ) (hs : s ≤ 28) : (storedSize m s).isNegative = false := by
  unfold storedSize
  split
  · rw [Binary.isNegative_ofInt]
    exact decide_eq_false (Int.not_lt.2 (Int.natCast_nonneg _))
  · exact Binary.isNegative_ofFraction
      (Nat.mul_pos (Binary.den_toFraction_pos _) (Binary.num_toFraction_pos (unit_pos hs).ne')) _

end

/-- Every decimal is stored as a finite double with its sign, near to it. -/
theorem near_toDouble (d : Decimal) :
    d.toDouble.isFinite = true ∧ Near 25 d.size d.toDouble.size ∧
      d.toDouble.isNegative = decide (d.mantissa < 0) := by
  have hm : d.mantissa.natAbs < 2 ^ 96 := d.mantissa_lt
  have hs := d.scale_le
  rw [toDouble_eq, size]
  split
  · next hscale =>
    obtain ⟨hfinite, hnear⟩ := Binary.near_ofInt (moderate_natAbs (i := d.mantissa) (by omega))
    refine ⟨hfinite, ?_, Binary.isNegative_ofInt _⟩
    rw [hscale, pow_zero, div_one]
    exact hnear.mono (by decide) (Nat.cast_nonneg _) (Binary.size_nonneg _)
  · obtain ⟨hfinite, hnear⟩ := near_storedSize hm hs
    have hsign := isNegative_storedSize d.mantissa.natAbs hs
    split
    · next hneg =>
      have hmagnitude := Binary.magnitude_neg (storedSize d.mantissa.natAbs d.scale)
      refine ⟨?_, ?_, ?_⟩
      · rw [Binary.isFinite, hmagnitude]
        exact hfinite
      · rwa [Binary.size_congr hmagnitude]
      · rw [Binary.isNegative_neg, hsign, decide_eq_true hneg]
        rfl
    · next hneg =>
      refine ⟨hfinite, hnear, ?_⟩
      rw [hsign, decide_eq_false hneg]

/-! Mantissas of at most fifteen digits. -/

section

variable {m n s : ℕ}

theorem size_whole_exact (hn : n < 2 ^ 53) : (whole n).size = n := by
  have h := Binary.size_ofInt_exact (n := n) (i := 0) (j := n) (by simp) hn
    (moderate_natAbs (by rw [Int.natAbs_natCast]; omega))
  rwa [Int.natAbs_natCast] at h

/-- Powers of ten are doubles up to the twenty-second. -/
theorem size_unit_exact (hs : s ≤ 22) : (whole (10 ^ s)).size = 10 ^ s := by
  have hsplit : 10 ^ s = 5 ^ s * 2 ^ s := by rw [← Nat.mul_pow]
  have hfive : 5 ^ s < 2 ^ 53 := (Nat.pow_le_pow_right (by decide) hs).trans_lt (by decide)
  have h := Binary.size_ofInt_exact (n := (10 ^ s : ℕ)) (by rw [Int.natAbs_natCast, hsplit]) hfive
    (moderate_natAbs (by rw [Int.natAbs_natCast]; exact unit_le (by omega)))
  rw [Int.natAbs_natCast] at h
  exact_mod_cast h

variable (hm : m < 10 ^ 15) (hs : s ≤ 28)
include hm hs

/-- The mantissa comes out again. -/
theorem halfUp_scaledUp : (scaledUp m s).halfUp = m := by
  have hm' : m < 2 ^ 96 := hm.trans (by decide)
  have hparts : (whole (m / 10 ^ s)).size * (whole (10 ^ s)).size + (whole (m % 10 ^ s)).size =
      m := by
    rw [size_whole_exact (n := m % 10 ^ s) ((Nat.mod_le m _).trans_lt (by omega))]
    rcases le_or_gt s 22 with hle | hgt
    · rw [size_whole_exact ((Nat.div_le_self m _).trans_lt (by omega)), size_unit_exact hle]
      exact_mod_cast Nat.div_add_mod' m (10 ^ s)
    · -- the unit is not exact any more, but there is no whole part
      have hlt : m < 10 ^ s := hm.trans (Nat.pow_lt_pow_right (by decide) (by omega))
      rw [Nat.div_eq_of_lt hlt, Nat.mod_eq_of_lt hlt, size_whole_exact (by decide), Nat.cast_zero,
        zero_mul, zero_add]
  have hnear := (near_scaledUp hm' hs).1
  rw [hparts] at hnear
  have hm₀ : (0 : ℚ) ≤ m := Nat.cast_nonneg m
  have hm₁ : (m : ℚ) < 10 ^ 15 := by exact_mod_cast hm
  have hkept : 999 / 1000 ≤ Binary.kept ^ 3 := by norm_num [Binary.kept]
  have habove := (mul_le_mul_of_nonneg_left hkept (Binary.size_nonneg _)).trans hnear.above
  have hdistance := hnear.abs_sub_le hm₀
  have hmax : max (m : ℚ) (scaledUp m s).size ≤ 1000 / 999 * 10 ^ 15 :=
    max_le (by linarith) (by linarith)
  apply Binary.halfUp_eq
  norm_num at hdistance ⊢
  linarith

theorem storedSize_eq (hpart : (part m s).magnitude ≠ 0) :
    storedSize m s = (whole m).divSizes (whole (10 ^ s)) := by
  rw [storedSize, if_neg hpart, Binary.roundSize_eq, halfUp_scaledUp hm hs]

theorem near_storedSize_short : Near 2 (m / 10 ^ s) (storedSize m s).size := by
  have hm' : m ≤ 2 ^ 99 := hm.le.trans (by decide)
  by_cases hpart : (part m s).magnitude = 0
  · exact (near_storedSize_whole (hm.trans (by decide)) hs hpart).mono (by decide) (by positivity)
      (Binary.size_nonneg _)
  · obtain ⟨hunit, hmoderate⟩ := near_whole (unit_le hs)
    have hquotient := (near_whole hm').2.div hmoderate
    have hdiv := (Binary.near_divSizes (unit_pos hs).ne' (hquotient.mono (by decide))).2
    have hexact : Near 0 m (whole m).size := by
      rw [size_whole_exact (by omega)]
      exact .refl _
    have hnear := (hexact.div hunit (Nat.cast_nonneg m) (by positivity)).trans hdiv
    rw [storedSize_eq hm hs hpart]
    push_cast at hnear
    exact hnear

omit hs in
/-- Up to the twenty-second place the double is the nearest there is. -/
theorem rounded_storedSize (hs : s ≤ 22) : Binary.Rounded (m / 10 ^ s) (storedSize m s) := by
  have hs' : s ≤ 28 := by omega
  by_cases hpart : (part m s).magnitude = 0
  · have hwhole := natCast_div_unit (mod_eq_zero_of_part hs' hpart)
    rw [storedSize, if_pos hpart, ← hwhole]
    exact Binary.rounded_ofInt ((m / 10 ^ s : ℕ) : ℤ)
  · have hrounded := Binary.rounded_divSizes (x := whole m) (unit_pos hs').ne'
    rw [size_whole_exact (by omega), size_unit_exact hs] at hrounded
    rwa [storedSize_eq hm hs' hpart]

end

/-- At most fifteen digits. -/
def Short (d : Decimal) : Prop := d.mantissa.natAbs < 10 ^ 15

instance (d : Decimal) : Decidable d.Short := inferInstanceAs (Decidable (_ < _))

theorem magnitude_toDouble (d : Decimal) :
    d.toDouble.magnitude =
      if d.scale = 0 then (Binary.ofInt .double d.mantissa).magnitude
      else (storedSize d.mantissa.natAbs d.scale).magnitude := by
  rw [toDouble_eq]
  split
  · rfl
  · split
    · exact Binary.magnitude_neg _
    · rfl

theorem Short.near {d : Decimal} (h : d.Short) : Near 2 d.size d.toDouble.size := by
  have hmagnitude := d.magnitude_toDouble
  rw [size]
  split at hmagnitude
  · next hscale =>
    have hm : d.mantissa.natAbs ≤ 2 ^ 99 := h.le.trans (by decide)
    rw [Binary.size_congr hmagnitude, hscale, pow_zero, div_one]
    exact (Binary.near_ofInt (moderate_natAbs hm)).2.mono (by decide) (Nat.cast_nonneg _)
      (Binary.size_nonneg _)
  · rw [Binary.size_congr hmagnitude]
    exact near_storedSize_short h d.scale_le

theorem Short.rounded {d : Decimal} (h : d.Short) (hs : d.scale ≤ 22) :
    Binary.Rounded d.size d.toDouble := by
  have hmagnitude := d.magnitude_toDouble
  have hrounded : Binary.Rounded d.size
      (if d.scale = 0 then Binary.ofInt .double d.mantissa
        else storedSize d.mantissa.natAbs d.scale) := by
    rw [size]
    split
    · next hscale =>
      rw [hscale, pow_zero, div_one]
      exact Binary.rounded_ofInt d.mantissa
    · exact rounded_storedSize h hs
  obtain ⟨negative, num, den, hden, hvalue, hround⟩ := hrounded
  refine ⟨negative, num, den, hden, hvalue, ?_⟩
  rw [hmagnitude, ← hround]
  split <;> rfl

/-! Decimals that are stored alike. -/

section

variable {a b : Decimal}

theorem isNegative_of_toDouble_eq (h : a.toDouble = b.toDouble) :
    a.mantissa < 0 ↔ b.mantissa < 0 := by
  rw [← decide_eq_decide, ← (near_toDouble a).2.2, ← (near_toDouble b).2.2, h]

theorem abs_number (d : Decimal) : |d.number| = d.size := by
  rw [number_eq]
  split
  · rw [abs_neg, abs_of_nonneg d.size_nonneg]
  · exact abs_of_nonneg d.size_nonneg

theorem abs_number_sub (h : a.toDouble = b.toDouble) :
    |a.number - b.number| = |a.size - b.size| := by
  rw [number_eq, number_eq, if_congr (isNegative_of_toDouble_eq h) rfl rfl]
  split
  · rw [← neg_sub', abs_neg]
  · rfl

/-- Decimals that are stored alike differ by a small part of the greater one. -/
theorem abs_number_sub_le (h : a.toDouble = b.toDouble) :
    |a.number - b.number| ≤ max |a.number| |b.number| / 2 ^ 47 := by
  have ha := (near_toDouble a).2.1
  have hb := (near_toDouble b).2.1
  rw [h] at ha
  have hdistance := (ha.trans hb.symm).abs_sub_le a.size_nonneg
  have hmax : 0 ≤ max a.size b.size := a.size_nonneg.trans (le_max_left _ _)
  rw [abs_number_sub h, abs_number, abs_number]
  norm_num at hdistance ⊢
  linarith

/-- Whole numbers with fifteen digits are too far apart to be confused. -/
theorem eq_of_near {m n : ℕ} (h : Near 4 m n) (hn : n < 10 ^ 15) : m = n := by
  have hn₁ : (n : ℚ) < 10 ^ 15 := by exact_mod_cast hn
  have hm₀ : (0 : ℚ) ≤ m := Nat.cast_nonneg m
  have hkept : 999 / 1000 ≤ Binary.kept ^ 4 := by norm_num [Binary.kept]
  have hbelow := (mul_le_mul_of_nonneg_left hkept hm₀).trans h.below
  have hdistance := h.abs_sub_le hm₀
  have hmax : max (m : ℚ) n ≤ 1000 / 999 * 10 ^ 15 := max_le (by linarith) (by linarith)
  have hlt : |(m : ℚ) - n| < 1 := by
    norm_num at hdistance ⊢
    linarith
  obtain ⟨h₁, h₂⟩ := abs_lt.1 hlt
  have h₁ : (n : ℚ) < m + 1 := by linarith
  have h₂ : (m : ℚ) < n + 1 := by linarith
  have h₁ : n < m + 1 := by exact_mod_cast h₁
  have h₂ : m < n + 1 := by exact_mod_cast h₂
  omega

theorem size_eq_of_near (hb : b.Short) (hscale : a.scale ≤ b.scale) (h : Near 4 a.size b.size) :
    a.size = b.size := by
  -- over the finer scale both are whole numbers
  have hunit : (0 : ℚ) < 10 ^ b.scale := by positivity
  have hsplit : (10 : ℚ) ^ b.scale = 10 ^ a.scale * 10 ^ (b.scale - a.scale) := by
    rw [← pow_add, Nat.add_sub_cancel' hscale]
  have hfine : a.size * 10 ^ b.scale =
      (a.mantissa.natAbs * 10 ^ (b.scale - a.scale) : ℕ) := by
    rw [size, hsplit, ← mul_assoc, div_mul_cancel₀ _ (by positivity)]
    push_cast
    rfl
  have hscaled := h.mul (.refl (10 ^ b.scale : ℚ)) a.size_nonneg hunit.le
  have hb' : b.size * 10 ^ b.scale = b.mantissa.natAbs := div_mul_cancel₀ _ hunit.ne'
  rw [hfine, hb'] at hscaled
  have heq := eq_of_near hscaled hb
  apply mul_right_cancel₀ hunit.ne'
  rw [hfine, heq, hb']

theorem number_eq_of_toDouble_eq (ha : a.Short) (hb : b.Short) (h : a.toDouble = b.toDouble) :
    a.number = b.number := by
  have hnear : Near 4 a.size b.size := by
    have ha := ha.near
    rw [h] at ha
    exact ha.trans hb.near.symm
  have hsize : a.size = b.size := by
    rcases le_total a.scale b.scale with hle | hle
    · exact size_eq_of_near hb hle hnear
    · exact (size_eq_of_near ha hle hnear.symm).symm
  rw [number_eq, number_eq, if_congr (isNegative_of_toDouble_eq h) rfl rfl, hsize]

end

end Decimal

end RowLedger
