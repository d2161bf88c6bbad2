import RowLedger.Proofs.Text.Numeral

/-!
How texts stand in order, character by character: numbers of one width stand as the numbers they
are, and two texts that start with different fields stand as these fields do.
-/

namespace RowLedger.Text

theorem append_lt_append_iff {a b c d : List Char} (h : a.length = b.length) :
    a ++ c < b ++ d ↔ a < b ∨ a = b ∧ c < d := by
  induction a generalizing b with
  | nil =>
    rw [List.length_nil] at h
    simp [List.eq_nil_of_length_eq_zero h.symm]
  | cons x a ih =>
    cases b with
    | nil => cases h
    | cons y b =>
      have hih := ih (Nat.succ.inj h)
      simp only [List.cons_append, List.cons_lt_cons_iff, hih, List.cons.injEq]
      grind

theorem digitsValue_cons (c : Char) (cs : List Char) :
    digitsValue (c :: cs) = Nat.pow 10 cs.length * digitValue c + digitsValue cs := by
  have hfrom : digitsValue (c :: cs) = Nat.ofDigitChars 10 cs (10 * 0 + digitValue c) := rfl
  rw [hfrom, Nat.ofDigitChars_eq_ofDigitChars_zero, Nat.mul_zero, Nat.zero_add]
  rfl

theorem digitsValue_lt {cs : List Char} (h : AllDigits cs) :
    digitsValue cs < Nat.pow 10 cs.length := by
  induction cs with
  | nil => decide
  | cons c cs ih =>
    have hc := toNat_of_isDigit (h c List.mem_cons_self)
    have hcs := ih fun d hd => h d (List.mem_cons_of_mem c hd)
    have hpow : Nat.pow 10 (c :: cs).length = Nat.pow 10 cs.length * 10 := rfl
    have hle : Nat.pow 10 cs.length * digitValue c ≤ Nat.pow 10 cs.length * 9 :=
      Nat.mul_le_mul_left _ (by unfold digitValue; omega)
    rw [digitsValue_cons, hpow]
    omega

theorem lt_iff_digitsValue_lt {cs ds : List Char} (hc : AllDigits cs) (hd : AllDigits ds)
    (h : cs.length = ds.length) : cs < ds ↔ digitsValue cs < digitsValue ds := by
  induction cs generalizing ds with
  | nil =>
    rw [List.length_nil] at h
    simp [List.eq_nil_of_length_eq_zero h.symm]
  | cons x cs ih =>
    cases ds with
    | nil => cases h
    | cons y ds =>
      have hlen : cs.length = ds.length := Nat.succ.inj h
      have hcs : AllDigits cs := fun c h => hc c (List.mem_cons_of_mem x h)
      have hds : AllDigits ds := fun c h => hd c (List.mem_cons_of_mem y h)
      have hx := toNat_of_isDigit (hc x List.mem_cons_self)
      have hy := toNat_of_isDigit (hd y List.mem_cons_self)
      have hlt : x < y ↔ digitValue x < digitValue y := by
        rw [Char.lt_def, UInt32.lt_iff_toNat_lt]
        unfold digitValue Char.toNat at *
        omega
      have heq : x = y ↔ digitValue x = digitValue y := by
        rw [← Char.toNat_inj]
        unfold digitValue
        omega
      have hxs := digitsValue_lt hcs
      have hys := digitsValue_lt hds
      rw [List.cons_lt_cons_iff, ih hcs hds hlen, hlt, heq, digitsValue_cons, digitsValue_cons,
        hlen]
      rw [hlen] at hxs
      -- the first digit decides, for the others together are less than one of its units
      rcases Nat.lt_trichotomy (digitValue x) (digitValue y) with h | h | h
      · have := Nat.mul_le_mul_left (Nat.pow 10 ds.length) h
        rw [Nat.mul_succ] at this
        omega
      · simp [h]
      · have := Nat.mul_le_mul_left (Nat.pow 10 ds.length) h
        rw [Nat.mul_succ] at this
        omega

/-- Two numbers in as many digits, and then the rest. -/
theorem padLeft_append_lt_iff {m n width : Nat} (hw : 0 < width) (hm : m < Nat.pow 10 width)
    (hn : n < Nat.pow 10 width) (c d : List Char) :
    padLeft width '0' (natDigits m) ++ c < padLeft width '0' (natDigits n) ++ d ↔
      m < n ∨ m = n ∧ c < d := by
  have hlen : (padLeft width '0' (natDigits m)).length =
      (padLeft width '0' (natDigits n)).length := by
    rw [length_padLeft (length_natDigits_le hw hm), length_padLeft (length_natDigits_le hw hn)]
  have hlt := lt_iff_digitsValue_lt ((allDigits_natDigits m).padLeft width)
    ((allDigits_natDigits n).padLeft width) hlen
  rw [digitsValue_padLeft, digitsValue_padLeft, digitsValue_natDigits, digitsValue_natDigits] at hlt
  have heq : padLeft width '0' (natDigits m) = padLeft width '0' (natDigits n) ↔ m = n := by
    refine ⟨fun h => ?_, fun h => h ▸ rfl⟩
    have := congrArg digitsValue h
    rwa [digitsValue_padLeft, digitsValue_padLeft, digitsValue_natDigits,
      digitsValue_natDigits] at this
  rw [append_lt_append_iff hlen, hlt, heq]

theorem padLeft_lt_iff {m n width : Nat} (hw : 0 < width) (hm : m < Nat.pow 10 width)
    (hn : n < Nat.pow 10 width) :
    padLeft width '0' (natDigits m) < padLeft width '0' (natDigits n) ↔ m < n := by
  have h := padLeft_append_lt_iff hw hm hn [] []
  simpa using h

theorem twoDigits_append_lt_iff {m n : Nat} (hm : m < 100) (hn : n < 100) (c d : List Char) :
    twoDigits m ++ c < twoDigits n ++ d ↔ m < n ∨ m = n ∧ c < d :=
  padLeft_append_lt_iff (by decide) hm hn c d

theorem twoDigits_lt_iff {m n : Nat} (hm : m < 100) (hn : n < 100) :
    twoDigits m < twoDigits n ↔ m < n :=
  padLeft_lt_iff (by decide) hm hn

/-- Numbers of any length that a mark ends, if they or their marks differ: neither text can be part
of the other, so that what follows does not count. -/
theorem mark_append_lt_iff {ds es : List Char} (hd : AllDigits ds) (he : AllDigits es) {c d : Char}
    (hc : c.isDigit = false) (hd' : d.isDigit = false) (hne : ds ++ [c] ≠ es ++ [d])
    (r r' : List Char) : ds ++ c :: r < es ++ d :: r' ↔ ds ++ [c] < es ++ [d] := by
  induction ds generalizing es with
  | nil =>
    cases es with
    | nil =>
      have hcd : c ≠ d := by
        rintro rfl
        exact hne rfl
      simp [List.cons_lt_cons_iff, hcd]
    | cons e es =>
      have hce : c ≠ e := (ne_of_isDigit (he e List.mem_cons_self) hc).symm
      simp [List.cons_lt_cons_iff, hce]
  | cons x ds ih =>
    cases es with
    | nil =>
      have hxd : x ≠ d := ne_of_isDigit (hd x List.mem_cons_self) hd'
      simp [List.cons_lt_cons_iff, hxd]
    | cons y es =>
      have hds : AllDigits ds := fun c hc => hd c (List.mem_cons_of_mem x hc)
      have hes : AllDigits es := fun c hc => he c (List.mem_cons_of_mem y hc)
      simp only [List.cons_append, List.cons_lt_cons_iff]
      refine or_congr_right (and_congr_right ?_)
      rintro rfl
      exact ih hds hes fun h => hne (congrArg (x :: ·) h)

end RowLedger.Text
