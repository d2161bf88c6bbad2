import Mathlib.Tactic.Tauto
import RowLedger.Number.Shortest
import RowLedger.Proofs.Number.Nearness

/-!
The shortest digits of a double. Whatever decimal the double is nearest to comes out again, as long
as it has so few digits that no other one of its grid rounds to the double.
-/

namespace RowLedger.Shortest

/-- The number that the digits denote. -/
def Decimal10.value (d : Decimal10) : ℚ := d.digits * 10 ^ d.exp

/-- Both sides are brought over one denominator. -/
theorem compareScaled_eq (a : ℕ) (i : ℤ) (n : ℕ) (j : ℤ) :
    compareScaled a i n j = cmp (a * 10 ^ i : ℚ) (n * 2 ^ j) := by
  have hten := Binary.zpow_eq_div 10 i
  have htwo := Binary.zpow_eq_div 2 j
  rw [Nat.cast_ofNat] at hten htwo
  have hten₀ : (0 : ℚ) < (Nat.pow 10 (-i).toNat : ℕ) := by exact_mod_cast Nat.pow_pos (by decide)
  have htwo₀ : (0 : ℚ) < (Nat.pow 2 (-j).toNat : ℕ) := by exact_mod_cast Nat.pow_pos two_pos
  rw [compareScaled, ← cmp_eq_compare, ← (Nat.strictMono_cast (α := ℚ)).cmp_map_eq,
    ← cmp_mul_pos_right (mul_pos hten₀ htwo₀) (a * 10 ^ i : ℚ)]
  apply congrArg₂ cmp
  · rw [hten]
    push_cast
    field_simp
  · rw [htwo]
    push_cast
    field_simp

theorem compareScaled_lt_iff {a : ℕ} {i : ℤ} {n : ℕ} {j : ℤ} :
    compareScaled a i n j = .lt ↔ (a * 10 ^ i : ℚ) < n * 2 ^ j := by
  rw [compareScaled_eq, cmp_eq_lt_iff]

theorem compareScaled_gt_iff {a : ℕ} {i : ℤ} {n : ℕ} {j : ℤ} :
    compareScaled a i n j = .gt ↔ (n * 2 ^ j : ℚ) < a * 10 ^ i := by
  rw [compareScaled_eq, cmp_eq_gt_iff]

theorem compareScaled_eq_iff {a : ℕ} {i : ℤ} {n : ℕ} {j : ℤ} :
    compareScaled a i n j = .eq ↔ (a * 10 ^ i : ℚ) = n * 2 ^ j := by
  rw [compareScaled_eq, cmp_eq_eq_iff]

/-- A number lies where rounding leads to `m * 2 ^ q`; the ends count if `m` is even. -/
structure Takes (m : ℕ) (q : ℤ) (narrow : Bool) (v : ℚ) : Prop where
  low : (4 * m - (if narrow then 1 else 2) : ℕ) * 2 ^ (q - 2) < v ∨
    m % 2 = 0 ∧ v = (4 * m - (if narrow then 1 else 2) : ℕ) * 2 ^ (q - 2)
  high : v < (4 * m + 2 : ℕ) * 2 ^ (q - 2) ∨ m % 2 = 0 ∧ v = (4 * m + 2 : ℕ) * 2 ^ (q - 2)

variable {m : ℕ} {q : ℤ} {narrow : Bool} {v w : ℚ}

theorem roundsTo_iff {d : Decimal10} : roundsTo m q narrow d = true ↔ Takes m q narrow d.value := by
  simp only [roundsTo, Bool.and_eq_true, Bool.or_eq_true, beq_iff_eq, compareScaled_lt_iff,
    compareScaled_gt_iff, compareScaled_eq_iff]
  exact ⟨fun h => ⟨h.1, h.2⟩, fun h => ⟨h.low, h.high⟩⟩

theorem quarter_zpow (q : ℤ) : (2 : ℚ) ^ (q - 2) = 2 ^ q / 4 := by
  rw [zpow_sub₀ two_ne_zero]
  norm_num

namespace Takes

variable (h : Takes m q narrow v)
include h

/-- Half a step on both sides. -/
theorem abs_sub_le (hm : 0 < m) : |v - m * 2 ^ q| ≤ 2 ^ q / 2 := by
  have hquarter := quarter_zpow q
  have hpow : (0 : ℚ) < 2 ^ q := by positivity
  have hgap : (4 * m - 2 : ℚ) ≤ (4 * m - (if narrow then 1 else 2) : ℕ) := by
    rw [Nat.cast_sub (by split <;> omega)]
    push_cast
    split <;> linarith
  have hlow := h.low.elim le_of_lt fun h => h.2.ge
  have hhigh := h.high.elim le_of_lt fun h => h.2.le
  rw [hquarter] at hlow hhigh
  have hlow' := (mul_le_mul_of_nonneg_right hgap (by positivity : 0 ≤ (2 : ℚ) ^ q / 4)).trans hlow
  push_cast at hhigh
  rw [abs_le]
  constructor <;> linarith

end Takes

/-! The number of digits before the point. -/

/-- The estimate of the logarithm is near enough for all exponents that decimals reach. -/
theorem guess_spec {l : ℤ} (hlow : -128 ≤ l) (hhigh : l < 128) :
    (10 : ℚ) ^ (Int.fdiv (l * 30103) 100000 - 2) ≤ 2 ^ l ∧
      (2 : ℚ) ^ (l + 1) ≤ 10 ^ (Int.fdiv (l * 30103) 100000 + 2) := by
  have hall : ∀ n : ℕ, n < 256 →
      compareScaled 1 (Int.fdiv (((n : ℤ) - 128) * 30103) 100000 - 2) 1 ((n : ℤ) - 128) ≠ .gt ∧
        compareScaled 1 (Int.fdiv (((n : ℤ) - 128) * 30103) 100000 + 2) 1 ((n : ℤ) - 128 + 1) ≠
          .lt := by
    decide +kernel
  have hl : ((l + 128).toNat : ℤ) - 128 = l := by omega
  have h := hall (l + 128).toNat (by omega)
  rw [hl, ne_eq, ne_eq, compareScaled_gt_iff, compareScaled_lt_iff] at h
  simpa only [Nat.cast_one, one_mul, not_lt] using h

/-- The power of two at the leading bit and the next one. -/
theorem two_zpow_log2 (hm : m ≠ 0) (q : ℤ) :
    (2 : ℚ) ^ (q + m.log2) ≤ m * 2 ^ q ∧ (m * 2 ^ q : ℚ) < 2 ^ (q + m.log2 + 1) := by
  have hpow : (0 : ℚ) < 2 ^ q := by positivity
  have hlow : (2 : ℚ) ^ m.log2 ≤ m := by exact_mod_cast Nat.log2_self_le hm
  have hhigh : (m : ℚ) < 2 ^ (m.log2 + 1) := by exact_mod_cast Nat.lt_log2_self
  constructor
  · rw [zpow_add₀ two_ne_zero, mul_comm, zpow_natCast]
    exact mul_le_mul_of_nonneg_right hlow hpow.le
  · rw [add_assoc, zpow_add₀ two_ne_zero, mul_comm]
    exact mul_lt_mul_of_pos_left (by exact_mod_cast hhigh) hpow

theorem decimalExponent_spec (hm : m ≠ 0) (hlow : -128 ≤ q + m.log2) (hhigh : q + m.log2 < 128) :
    (10 : ℚ) ^ (decimalExponent m q - 1) ≤ m * 2 ^ q ∧
      (m * 2 ^ q : ℚ) < 10 ^ decimalExponent m q := by
  obtain ⟨hlow', hhigh'⟩ := two_zpow_log2 hm q
  obtain ⟨hbelow, habove⟩ := guess_spec hlow hhigh
  have hbelow := hbelow.trans hlow'
  have habove := hhigh'.trans_le habove
  have hisAbove (k : ℤ) : (compareScaled 1 k m q == .gt) = true ↔ (m * 2 ^ q : ℚ) < 10 ^ k := by
    rw [beq_iff_eq, compareScaled_gt_iff, Nat.cast_one, one_mul]
  unfold decimalExponent
  dsimp only
  simp only [hisAbove]
  generalize Int.fdiv ((q + m.log2) * 30103) 100000 = guess at *
  split
  · next h =>
    rw [sub_sub]
    exact ⟨hbelow, h⟩
  · next h₁ =>
    split
    · next h => exact ⟨not_lt.1 h₁, h⟩
    · next h₂ =>
      split
      · next h =>
        rw [add_sub_cancel_right]
        exact ⟨not_lt.1 h₂, h⟩
      · next h₃ =>
        rw [show guess + 2 - 1 = guess + 1 by omega]
        exact ⟨not_lt.1 h₃, habove⟩

/-! One grid. -/

variable {i : ℤ} {d : Decimal10}

/-- The two neighbours in the order in which they are tried. -/
def candidates (m : ℕ) (q i : ℤ) : List Decimal10 :=
  let low := (neighbours m q i).1
  if (neighbours m q i).2 then [⟨low + 1, i⟩, ⟨low, i⟩] else [⟨low, i⟩, ⟨low + 1, i⟩]

theorem onGrid?_eq (m : ℕ) (q : ℤ) (narrow : Bool) (i : ℤ) :
    onGrid? m q narrow i = (candidates m q i).find? (roundsTo m q narrow) := by
  unfold onGrid? candidates
  cases h : (neighbours m q i).2 with
  | false => simp only [h, Bool.false_eq_true, if_false, List.find?]; grind
  | true => simp only [h, if_true, List.find?]; grind

theorem mem_candidates :
    d ∈ candidates m q i ↔ d.exp = i ∧
      (d.digits = (neighbours m q i).1 ∨ d.digits = (neighbours m q i).1 + 1) := by
  obtain ⟨digits, exp⟩ := d
  unfold candidates
  dsimp only
  split <;> simp only [List.mem_cons, Decimal10.mk.injEq, List.not_mem_nil, or_false] <;> tauto

theorem of_onGrid? (h : onGrid? m q narrow i = some d) : d.exp = i ∧ Takes m q narrow d.value := by
  rw [onGrid?_eq] at h
  exact ⟨(mem_candidates.1 (List.mem_of_find?_eq_some h)).1,
    roundsTo_iff.1 (List.find?_some h)⟩

theorem neighbours_spec (m : ℕ) (q i : ℤ) :
    (((neighbours m q i).1 : ℕ) : ℚ) ≤ m * 2 ^ q / 10 ^ i ∧
      (m * 2 ^ q / 10 ^ i : ℚ) < (neighbours m q i).1 + 1 := by
  have hten := Binary.zpow_eq_div 10 i
  have htwo := Binary.zpow_eq_div 2 q
  rw [Nat.cast_ofNat] at hten htwo
  have hten₀ : 0 < Nat.pow 10 i.toNat := Nat.pow_pos (by decide)
  have htwo₀ : 0 < Nat.pow 2 (-q).toNat := Nat.pow_pos two_pos
  have hden := Nat.mul_pos htwo₀ hten₀
  have hfraction : (m * 2 ^ q / 10 ^ i : ℚ) =
      (m * Nat.pow 2 q.toNat * Nat.pow 10 (-i).toNat : ℕ) /
        (Nat.pow 2 (-q).toNat * Nat.pow 10 i.toNat : ℕ) := by
    rw [hten, htwo, ← mul_div_assoc, div_div_div_eq]
    push_cast
    rfl
  rw [hfraction, le_div_iff₀ (by exact_mod_cast hden), div_lt_iff₀ (by exact_mod_cast hden)]
  constructor
  · exact_mod_cast Nat.div_mul_le_self _ _
  · rw [mul_comm (_ + 1 : ℚ)]
    exact_mod_cast Nat.lt_mul_div_succ _ hden

/-- A multiple that rounds to the double is met if it is next to it. -/
theorem onGrid?_isSome {n : ℕ} (htakes : Takes m q narrow (n * 10 ^ i))
    (hnear : |(n * 10 ^ i : ℚ) - m * 2 ^ q| < 10 ^ i) : (onGrid? m q narrow i).isSome := by
  have hpow : (0 : ℚ) < 10 ^ i := by positivity
  obtain ⟨hlow, hhigh⟩ := neighbours_spec m q i
  obtain ⟨h₁, h₂⟩ := abs_lt.1 hnear
  have h₁ : (m * 2 ^ q / 10 ^ i : ℚ) < n + 1 := by
    rw [div_lt_iff₀ hpow]
    linarith
  have h₂ : (n : ℚ) - 1 < m * 2 ^ q / 10 ^ i := by
    rw [lt_div_iff₀ hpow]
    linarith
  have hn : n = (neighbours m q i).1 ∨ n = (neighbours m q i).1 + 1 := by
    have h₃ : ((neighbours m q i).1 : ℚ) < n + 1 := by linarith
    have h₄ : (n : ℚ) < (neighbours m q i).1 + 2 := by linarith
    have h₃ : (neighbours m q i).1 < n + 1 := by exact_mod_cast h₃
    have h₄ : n < (neighbours m q i).1 + 2 := by exact_mod_cast h₄
    omega
  rw [onGrid?_eq, List.find?_isSome]
  exact ⟨⟨n, i⟩, mem_candidates.2 ⟨rfl, hn⟩, roundsTo_iff.2 htakes⟩

/-! The coarsest grid. -/

/-- The first hit of a search over a range comes no later than any other. -/
theorem exists_of_findSome?_range {α : Type} {f : ℕ → Option α} {b n : ℕ} (hn : n < b)
    (hhit : (f n).isSome) : ∃ k ≤ n, ∃ a, f k = some a ∧ (List.range b).findSome? f = some a := by
  have hsome : ((List.range b).findSome? f).isSome :=
    List.findSome?_isSome_iff.2 ⟨n, List.mem_range.2 hn, hhit⟩
  obtain ⟨a, ha⟩ := Option.isSome_iff_exists.1 hsome
  obtain ⟨before, k, after, hrange, hk, hnone⟩ := List.findSome?_eq_some_iff.1 ha
  have hget {j : ℕ} (hj : j < b) : (before ++ k :: after)[j]? = some j := by
    rw [← hrange, List.getElem?_range hj]
  have hlength : before.length < b := by
    have := congrArg List.length hrange
    rw [List.length_range, List.length_append, List.length_cons] at this
    omega
  have hk' : k = before.length := by
    have := hget hlength
    rw [List.getElem?_append_right le_rfl, Nat.sub_self] at this
    exact Option.some.inj this
  refine ⟨k, ?_, a, hk, ha⟩
  by_contra hlt
  have hmem : n ∈ before := by
    have := hget hn
    rw [List.getElem?_append_left (by omega)] at this
    exact List.mem_of_getElem? this
  rw [hnone n hmem] at hhit
  cases hhit

/-- Two multiples of a power of ten are the same if they are less than the power apart. -/
theorem eq_of_grid {i j : ℤ} {a b : ℕ} (hij : i ≤ j)
    (h : |(a * 10 ^ j : ℚ) - b * 10 ^ i| < 10 ^ i) : (a * 10 ^ j : ℚ) = b * 10 ^ i := by
  have hpow : (0 : ℚ) < 10 ^ i := by positivity
  have hfine : (a * 10 ^ j : ℚ) = (a * 10 ^ (j - i).toNat : ℕ) * 10 ^ i := by
    push_cast
    rw [← zpow_natCast, Int.toNat_of_nonneg (by omega), mul_assoc, ← zpow_add₀ (by norm_num),
      sub_add_cancel]
  rw [hfine, ← sub_mul, abs_mul, abs_of_pos hpow, mul_lt_iff_lt_one_left hpow] at h
  have hzero : |((a * 10 ^ (j - i).toNat : ℕ) : ℤ) - b| < 1 := by exact_mod_cast h
  have heq : ((a * 10 ^ (j - i).toNat : ℕ) : ℤ) = b := by
    rw [Int.abs_lt_one_iff] at hzero
    omega
  rw [hfine]
  congr 1
  exact_mod_cast heq

/-- A multiple that rounds to the double is what is selected, if the steps of the double are finer
than its grid and the grid is one of those that are tried. -/
theorem value_select {n : ℕ} (hm : 0 < m) (htakes : Takes m q narrow (n * 10 ^ i))
    (hfine : (2 : ℚ) ^ q < 10 ^ i) (hi : i < decimalExponent m q)
    (hi' : decimalExponent m q ≤ i + 18) : (select m q narrow).value = n * 10 ^ i := by
  have hpow : (0 : ℚ) < 2 ^ q := by positivity
  have hdistance := htakes.abs_sub_le hm
  have hhit : (onGrid? m q narrow
      (decimalExponent m q - ((decimalExponent m q - 1 - i).toNat + 1))).isSome := by
    rw [show decimalExponent m q - (((decimalExponent m q - 1 - i).toNat : ℤ) + 1) = i by omega]
    exact onGrid?_isSome htakes (by linarith)
  obtain ⟨k, hk, d, hd, hfind⟩ := exists_of_findSome?_range (b := 18)
    (f := fun n : ℕ => onGrid? m q narrow (decimalExponent m q - (n + 1))) (by omega) hhit
  have hselect : select m q narrow = d := by
    unfold select
    dsimp only
    rw [hfind]
  obtain ⟨hexp, hd⟩ := of_onGrid? hd
  rw [hselect]
  -- the hit is on a grid no finer, and both are within half a step of the double
  apply eq_of_grid (by omega)
  have hdistance' := hd.abs_sub_le hm
  rw [abs_le] at hdistance hdistance'
  rw [Decimal10.value] at hdistance'
  rw [abs_lt]
  constructor <;> linarith

/-! Doubles. -/

/-- The gap below a power of two is half as wide, except at the least exponent. -/
def isNarrow (x : Double) : Bool := x.significand == Nat.pow 2 52 && x.field > 1

theorem Takes.of_nearest {e : ℤ} (h : Binary.Nearest w m) (hw : (2 ^ 52 : ℕ) ≤ w)
    (hnarrow : narrow = true → m = 2 ^ 52) : Takes m e narrow (w * 2 ^ e) := by
  have hpow : (0 : ℚ) < 2 ^ e / 4 := by positivity
  have hm : 2 ^ 52 ≤ m := h.le_of_natCast_le hw
  have hw' : w * 2 ^ e = 4 * w * (2 ^ e / 4) := by ring
  constructor
  · rw [quarter_zpow, hw', mul_lt_mul_iff_left₀ hpow, mul_left_inj' hpow.ne',
      Nat.cast_sub (by split <;> omega)]
    push_cast
    cases narrow with
    | true =>
      rw [hnarrow rfl]
      push_cast at hw ⊢
      left
      simp only [if_true]
      linarith
    | false =>
      simp only [Bool.false_eq_true, if_false]
      rcases h.low.lt_or_eq with hlt | heq
      · exact .inl (by linarith)
      · exact .inr ⟨h.even (.inl heq.symm), by linarith⟩
  · rw [quarter_zpow, hw', mul_lt_mul_iff_left₀ hpow, mul_left_inj' hpow.ne']
    push_cast
    rcases h.high.lt_or_eq with hlt | heq
    · exact .inl (by linarith)
    · exact .inr ⟨h.even (.inr heq), by linarith⟩

/-- A carry leads to a power of two, from below. -/
theorem Takes.of_carry {e : ℤ} (h : Binary.Nearest w (2 ^ 53)) (hw : w < 2 ^ 53) :
    Takes (2 ^ 52) (e + 1) true (w * 2 ^ e) := by
  have hpow : (0 : ℚ) < 2 ^ e / 4 := by positivity
  have hstep : (2 : ℚ) ^ (e + 1 - 2) = 2 * (2 ^ e / 4) := by
    rw [quarter_zpow, zpow_add_one₀ two_ne_zero]
    ring
  have hw' : w * 2 ^ e = 2 * w * (2 * (2 ^ e / 4)) := by ring
  have hlow := h.low
  push_cast at hlow
  constructor
  · rw [hstep, hw', mul_lt_mul_iff_left₀ (by positivity), mul_left_inj' (by positivity)]
    norm_num
    rcases hlow.lt_or_eq with hlt | heq
    · exact .inl (by linarith)
    · exact .inr (by linarith)
  · rw [hstep, hw', mul_lt_mul_iff_left₀ (by positivity)]
    norm_num
    left
    linarith

theorem takes_of_rounded {x : Double} (h : Binary.Rounded v x) (hv : Binary.Moderate 1000 v)
    (hpos : 0 < v) :
    2 ^ 52 ≤ x.significand ∧ Takes x.significand x.exponent (isNarrow x) v := by
  obtain ⟨negative, num, den, hden, rfl, hmagnitude⟩ := h
  obtain ⟨hlow, hhigh⟩ := hv.resolve_left hpos.ne'
  have hnum : num ≠ 0 := by
    rintro rfl
    simp at hpos
  obtain ⟨k, n, hsteps, hn, -⟩ := Binary.exists_size_ofFraction hden negative hnum hhigh
  rw [hn] at hmagnitude
  have hplaces := hsteps.places hlow
  have hnearest := hsteps.nearest
  have hlt := hsteps.high
  rw [Binary.leastExponent_double] at hnearest hlt
  have hpow : (0 : ℚ) < 2 ^ (-1074 + k : ℤ) := by positivity
  rw [← div_mul_cancel₀ (num / den : ℚ) hpow.ne']
  obtain ⟨-, hsignificand, hexponent, -⟩ | ⟨rfl, hsignificand, hexponent, hfield⟩ :=
    Binary.steps_cases hmagnitude hsteps.le hsteps.ge
  · rw [hsignificand, hexponent]
    refine ⟨hnearest.le_of_natCast_le hplaces, .of_nearest hnearest hplaces fun hnarrow => ?_⟩
    rw [isNarrow, Bool.and_eq_true, beq_iff_eq, hsignificand] at hnarrow
    exact hnarrow.1
  · have hnarrow : isNarrow x = true := by
      rw [isNarrow, hsignificand, decide_eq_true hfield]
      rfl
    rw [hsignificand, hexponent, hnarrow]
    exact ⟨le_rfl, .of_carry hnearest hlt⟩

section

variable {n s : ℕ} (hm : 2 ^ 52 ≤ m) (htakes : Takes m q narrow (n / 10 ^ s))
include hm htakes

/-- A step is a small part of the double, and so is what the decimal is away from it. -/
theorem step_le :
    2 ^ 52 * 2 ^ q ≤ (m * 2 ^ q : ℚ) ∧ (m * 2 ^ q : ℚ) ≤ 1001 / 1000 * (n / 10 ^ s) ∧
      (n / 10 ^ s : ℚ) ≤ 2 * (m * 2 ^ q) := by
  have hpow : (0 : ℚ) < 2 ^ q := by positivity
  have hstep : 2 ^ 52 * 2 ^ q ≤ (m * 2 ^ q : ℚ) :=
    mul_le_mul_of_nonneg_right (by exact_mod_cast hm) hpow.le
  have hdistance := abs_le.1 (htakes.abs_sub_le (lt_of_lt_of_le (by decide) hm))
  generalize (m * 2 ^ q : ℚ) = x at *
  refine ⟨hstep, ?_, ?_⟩ <;> linarith

variable (hn : 0 < n) (hn' : n < 10 ^ 15)
include hn hn'

theorem log2_bounds (hs : s ≤ 22) : -128 ≤ q + m.log2 ∧ q + m.log2 < 128 := by
  obtain ⟨-, hhigh, hlow⟩ := step_le hm htakes
  have hunit : (0 : ℚ) < 10 ^ s := by positivity
  have hunit' : (10 : ℚ) ^ s ≤ 10 ^ 22 := pow_le_pow_right₀ (by norm_num) hs
  have hone : (1 : ℚ) ≤ n := by exact_mod_cast hn
  have hn' : (n : ℚ) < 10 ^ 15 := by exact_mod_cast hn'
  have hv : (1 / 10 ^ 22 : ℚ) ≤ n / 10 ^ s := by
    rw [div_le_div_iff₀ (by positivity) hunit, one_mul]
    exact hunit'.trans (le_mul_of_one_le_left (by positivity) hone)
  have hv' : (n / 10 ^ s : ℚ) ≤ n := div_le_self (by positivity) (one_le_pow₀ (by norm_num))
  have hm₀ : m ≠ 0 := Nat.pos_iff_ne_zero.1 (lt_of_lt_of_le (by decide) hm)
  obtain ⟨hbelow, habove⟩ := two_zpow_log2 hm₀ q
  constructor
  · by_contra hlt
    have : (2 : ℚ) ^ (q + m.log2 + 1) ≤ 2 ^ (-128 : ℤ) :=
      zpow_le_zpow_right₀ one_le_two (by omega)
    norm_num at this
    linarith
  · by_contra hge
    have : (2 : ℚ) ^ (128 : ℤ) ≤ 2 ^ (q + m.log2) := zpow_le_zpow_right₀ one_le_two (by omega)
    norm_num at this
    linarith

/-- Decimals of fifteen digits come out of the double that is nearest to them. -/
theorem value_select_of_takes (hs : s ≤ 22) : (select m q narrow).value = n / 10 ^ s := by
  obtain ⟨hstep, hhigh, hlow⟩ := step_le hm htakes
  obtain ⟨hlow', hhigh'⟩ := log2_bounds hm htakes hn hn' hs
  have hm₀ : 0 < m := lt_of_lt_of_le (by decide) hm
  obtain ⟨hk, hk'⟩ := decimalExponent_spec hm₀.ne' hlow' hhigh'
  have hunit : (10 : ℚ) ^ (-s : ℤ) = 1 / 10 ^ s := by rw [zpow_neg, zpow_natCast, one_div]
  have hdigits : (n / 10 ^ s : ℚ) < 10 ^ 15 * 10 ^ (-s : ℤ) := by
    have hn' : (n : ℚ) < 10 ^ 15 := by exact_mod_cast hn'
    rw [hunit, mul_one_div]
    exact div_lt_div_of_pos_right hn' (by positivity)
  have hunit₀ : (0 : ℚ) < 10 ^ (-s : ℤ) := by positivity
  -- the grid of the decimal, or the one below the first digit where that is finer
  obtain ⟨i, hi, hfine, hlt, hle⟩ : ∃ i : ℤ, i ≤ -s ∧ (2 : ℚ) ^ q < 10 ^ i ∧
      i < decimalExponent m q ∧ decimalExponent m q ≤ i + 18 := by
    rcases le_or_gt (-s : ℤ) (decimalExponent m q - 1) with hcoarse | hfiner
    · refine ⟨-s, le_rfl, by linarith, by omega, ?_⟩
      have hlast : (10 : ℚ) ^ (decimalExponent m q - 1) < 10 ^ (16 - s : ℤ) := by
        rw [sub_eq_add_neg (16 : ℤ), zpow_add₀ (by norm_num)]
        norm_num at hdigits ⊢
        linarith
      rw [zpow_lt_zpow_iff_right₀ (by norm_num)] at hlast
      omega
    · refine ⟨decimalExponent m q - 1, hfiner.le, ?_, by omega, by omega⟩
      rw [← sub_add_cancel (decimalExponent m q) 1, zpow_add_one₀ (by norm_num)] at hk'
      linarith
  have hgrid : (n / 10 ^ s : ℚ) = (n * 10 ^ (-s - i).toNat : ℕ) * 10 ^ i := by
    have hshift : (10 : ℚ) ^ (-s - i).toNat = 10 ^ (-s - i) := by
      rw [← zpow_natCast, Int.toNat_of_nonneg (by omega)]
    push_cast
    rw [mul_assoc, hshift, ← zpow_add₀ (by norm_num), sub_add_cancel, hunit, mul_one_div]
  rw [hgrid] at htakes ⊢
  exact value_select hm₀ htakes hfine hlt hle

end

end RowLedger.Shortest
