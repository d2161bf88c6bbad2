import RowLedger.Proofs.Number.Decimal
import RowLedger.Proofs.Number.Shortest
import RowLedger.Proofs.Text.Blank

/-!
Digits with a point, written and read. Reading takes the digits up as they come; as many as a
decimal holds are read as the number that was written.
-/

namespace RowLedger

namespace Text

theorem digitsValue_append (ds es : List Char) :
    digitsValue (ds ++ es) = 10 ^ es.length * digitsValue ds + digitsValue es := by
  show Nat.ofDigitChars 10 (ds ++ es) 0 = _
  rw [Nat.ofDigitChars_append, Nat.ofDigitChars_eq_ofDigitChars_zero]
  rfl

theorem le_ofDigitChars (n : ℕ) (ds : List Char) : n ≤ Nat.ofDigitChars 10 ds n := by
  rw [Nat.ofDigitChars_eq_ofDigitChars_zero]
  exact (Nat.le_mul_of_pos_left n (by positivity)).trans (Nat.le_add_right _ _)

end Text

namespace Decimal

open Text (AllDigits)

/-- The text read so far, with some digits more. -/
def Progress.after (p : Progress) (ds : List Char) : Progress where
  data := Nat.ofDigitChars 10 ds p.data
  scale := if p.point then p.scale + ds.length else 0
  point := p.point
  digit := p.digit || !ds.isEmpty

/-- Digits that a decimal holds are taken up. -/
theorem readDigits_append {p : Progress} {ds : List Char} (h : AllDigits ds)
    (hpoint : p.point = false → p.scale = 0) (hdata : (p.after ds).data < mantissaLimit)
    (hscale : (p.after ds).scale ≤ 28) (rest : List Char) :
    readDigits p (ds ++ rest) = readDigits (p.after ds) rest := by
  induction ds generalizing p with
  | nil =>
    have hafter : p.after [] = p := by
      obtain ⟨data, scale, point, digit⟩ := p
      cases point with
      | false =>
        obtain rfl : scale = 0 := hpoint rfl
        simp [Progress.after, Nat.ofDigitChars]
      | true => simp [Progress.after, Nat.ofDigitChars]
    rw [hafter, List.nil_append]
  | cons d ds ih =>
    let next : Progress :=
      { p with
        data := 10 * p.data + Text.digitValue d
        scale := if p.point then p.scale + 1 else 0
        digit := true }
    have hafter : next.after ds = p.after (d :: ds) := by
      obtain ⟨data, scale, point, digit⟩ := p
      cases point with
      | false => simp [next, Progress.after]; rfl
      | true => simp [next, Progress.after]; exact ⟨rfl, by omega⟩
    have hroom : (p.point && decide (28 ≤ p.scale)) = false := by
      cases hp : p.point with
      | false => rfl
      | true =>
        rw [Progress.after, hp] at hscale
        simp only [if_true, List.length_cons] at hscale
        exact decide_eq_false (by omega)
    have hlt : 10 * p.data + Text.digitValue d < mantissaLimit :=
      (Text.le_ofDigitChars _ ds).trans_lt hdata
    rw [← hafter] at hdata hscale ⊢
    rw [List.cons_append, readDigits, hroom, h d List.mem_cons_self, if_neg Bool.false_ne_true,
      if_pos rfl, if_pos hlt]
    refine ih (fun e he => h e (List.mem_cons_of_mem d he)) (fun hp => ?_) hdata hscale
    exact if_neg (by rw [hp]; exact Bool.false_ne_true)

/-- A sign before what has none itself. -/
theorem readPlain?_signed {body : List Char} (hminus : '-' ∉ body) (hplus : '+' ∉ body)
    (negative : Bool) :
    readPlain? (if negative then '-' :: body else body) =
      (readDigits ⟨0, 0, false, false⟩ body).bind fun (data, scale) =>
        make? (if negative then -(data : ℤ) else data) scale := by
  cases negative with
  | true => rfl
  | false =>
    unfold readPlain?
    split
    next negative r hr =>
    split at hr
    · next hbody =>
      rw [if_neg Bool.false_ne_true] at hbody
      rw [hbody] at hminus
      exact absurd List.mem_cons_self hminus
    · next hbody =>
      rw [if_neg Bool.false_ne_true] at hbody
      rw [hbody] at hplus
      exact absurd List.mem_cons_self hplus
    · cases hr
      rfl

/-- Digits with a point, or without one if nothing comes after it. -/
def pointed (whole part : List Char) : List Char :=
  if part.isEmpty then whole else whole ++ '.' :: part

section

variable {whole part : List Char} (hwhole : AllDigits whole) (hne : whole ≠ [])
  (hpart : AllDigits part) (hdata : Text.digitsValue (whole ++ part) < mantissaLimit)
  (hscale : part.length ≤ 28)
include hwhole hne hpart hdata hscale

theorem readDigits_pointed :
    readDigits ⟨0, 0, false, false⟩ (pointed whole part) =
      some (Text.digitsValue (whole ++ part), part.length) := by
  have hdata' : Nat.ofDigitChars 10 part (Nat.ofDigitChars 10 whole 0) < mantissaLimit := by
    rwa [← Nat.ofDigitChars_append]
  have hfirst := readDigits_append (p := ⟨0, 0, false, false⟩) hwhole (fun _ => rfl)
    ((Text.le_ofDigitChars _ part).trans_lt hdata') (Nat.zero_le _)
  have hdigit : (!whole.isEmpty) = true := by simpa using hne
  unfold pointed
  split
  · next hempty =>
    obtain rfl := List.isEmpty_iff.1 hempty
    have hread := hfirst []
    rw [List.append_nil] at hread ⊢
    rw [hread]
    simp [Progress.after, readDigits, hdigit]
    rfl
  · next hempty =>
    rw [hfirst, Progress.after, readDigits]
    have hsecond := readDigits_append (p := ⟨Nat.ofDigitChars 10 whole 0, 0, true, true⟩) hpart
      nofun hdata' (by simpa [Progress.after] using hscale) []
    rw [List.append_nil] at hsecond
    -- the point is no digit, and no point has been seen
    have hmark : '.'.isDigit = false := by decide
    simp only [hdigit, hmark, Bool.false_and, Bool.false_or, Bool.false_eq_true, if_false,
      Bool.not_false, Bool.and_true, decide_true, if_true, hsecond]
    show some (Nat.ofDigitChars 10 part (Nat.ofDigitChars 10 whole 0), 0 + part.length) =
      some (Nat.ofDigitChars 10 (whole ++ part) 0, part.length)
    rw [Nat.ofDigitChars_append, Nat.zero_add]

omit hne hdata hscale in
/-- Every character is a digit or the point. -/
theorem mem_pointed {c : Char} (hc : c ∈ pointed whole part) : c.isDigit = true ∨ c = '.' := by
  unfold pointed at hc
  split at hc
  · exact .inl (hwhole c hc)
  · rcases List.mem_append.1 hc with hc | hc
    · exact .inl (hwhole c hc)
    · rcases List.mem_cons.1 hc with rfl | hc
      · exact .inr rfl
      · exact .inl (hpart c hc)

theorem read?_pointed (negative : Bool) :
    ∃ d, read? (if negative then '-' :: pointed whole part else pointed whole part) = some d ∧
      d.mantissa = (if negative then -(Text.digitsValue (whole ++ part) : ℤ)
        else Text.digitsValue (whole ++ part)) ∧ d.scale = part.length := by
  have hsigns : '-' ∉ pointed whole part ∧ '+' ∉ pointed whole part :=
    ⟨fun h => by simpa using mem_pointed hwhole hpart h,
      fun h => by simpa using mem_pointed hwhole hpart h⟩
  have hmantissa : (if negative then -(Text.digitsValue (whole ++ part) : ℤ)
      else Text.digitsValue (whole ++ part)).natAbs < mantissaLimit := by
    split
    · rwa [Int.natAbs_neg, Int.natAbs_natCast]
    · rwa [Int.natAbs_natCast]
  refine ⟨⟨_, _, hmantissa, hscale⟩, ?_, rfl, rfl⟩
  have hmake : make? (if negative then -(Text.digitsValue (whole ++ part) : ℤ)
      else Text.digitsValue (whole ++ part)) part.length = some ⟨_, _, hmantissa, hscale⟩ :=
    dif_pos ⟨hmantissa, hscale⟩
  rw [read?, readPlain?_signed hsigns.1 hsigns.2,
    readDigits_pointed hwhole hne hpart hdata hscale, Option.bind_some]
  dsimp only
  rw [hmake]
  rfl

end

end Decimal

namespace Shortest

open Text (AllDigits)
open Decimal (pointed)

/-- Zeros at the end are dropped, and what is left does not end in one. -/
theorem exists_zeros_after (cs : List Char) :
    ∃ n, cs = (cs.reverse.dropWhile (· == '0')).reverse ++ List.replicate n '0' ∧
      ∀ c ∈ (cs.reverse.dropWhile (· == '0')).reverse.getLast?, c ≠ '0' := by
  refine ⟨(cs.reverse.takeWhile (· == '0')).length, ?_, ?_⟩
  · have hzeros : cs.reverse.takeWhile (· == '0') =
        List.replicate (cs.reverse.takeWhile (· == '0')).length '0' :=
      List.eq_replicate_iff.2 ⟨rfl, fun c hc => by simpa using List.mem_takeWhile_imp hc⟩
    rw [← List.reverse_replicate, ← hzeros, ← List.reverse_append, List.takeWhile_append_dropWhile,
      List.reverse_reverse]
  · intro c hc
    rw [List.getLast?_reverse] at hc
    have := List.head?_dropWhile_not (· == '0') cs.reverse
    rw [Option.mem_def.1 hc] at this
    simpa using this

theorem digitsValue_mod_ten {ds : List Char} {c : Char} (hc : c.isDigit = true) (hzero : c ≠ '0') :
    Text.digitsValue (ds ++ [c]) % 10 ≠ 0 := by
  have hdigit := Text.toNat_of_isDigit hc
  have hne : c.toNat ≠ 48 := fun h => hzero (Char.toNat_inj.1 h)
  have hone : Text.digitsValue [c] = c.toNat - 48 := by simp [Text.digitsValue, Text.digitValue]
  rw [Text.digitsValue_append, hone]
  simp only [List.length_singleton, pow_one]
  omega

/-- What stands around the point: digits that denote the number, with no zero at the end. -/
structure Written (d : Decimal10) (whole part : List Char) : Prop where
  text : positional d = pointed whole part
  before : AllDigits whole
  ne_nil : whole ≠ []
  after : AllDigits part
  value : (Text.digitsValue (whole ++ part) : ℚ) / 10 ^ part.length = d.value
  last : part ≠ [] → Text.digitsValue (whole ++ part) % 10 ≠ 0

theorem digitsValue_zeros (n : ℕ) : Text.digitsValue (List.replicate n '0') = 0 :=
  Nat.ofDigitChars_replicate_zero

variable {d : Decimal10}

theorem written_whole (hexp : 0 ≤ d.exp) :
    Written d (Text.natDigits d.digits ++ List.replicate d.exp.toNat '0') [] where
  text := if_pos hexp
  before c hc := by
    rcases List.mem_append.1 hc with hc | hc
    · exact Text.allDigits_natDigits d.digits c hc
    · rw [List.eq_of_mem_replicate hc]
      rfl
  ne_nil := by simp [Text.natDigits_ne_nil]
  after := nofun
  value := by
    have hpow : (10 : ℚ) ^ d.exp = 10 ^ d.exp.toNat := by
      rw [← zpow_natCast, Int.toNat_of_nonneg hexp]
    rw [List.append_nil, Text.digitsValue_append, digitsValue_zeros, Text.digitsValue_natDigits,
      Decimal10.value, hpow]
    simp [mul_comm]
  last h := absurd rfl h

/-- As many digits as there are places stand behind the point, and at least one before it. -/
theorem exists_written_places (hexp : d.exp < 0) : ∃ whole part, Written d whole part := by
  let places := d.exp.natAbs
  let ds := Text.padLeft (places + 1) '0' (Text.natDigits d.digits)
  let whole := ds.take (ds.length - places)
  let rest := ds.drop (ds.length - places)
  let part := (rest.reverse.dropWhile (· == '0')).reverse
  obtain ⟨n, hrest, hlast⟩ : ∃ n, rest = part ++ List.replicate n '0' ∧
      ∀ c ∈ part.getLast?, c ≠ '0' := exists_zeros_after rest
  have hdigits : AllDigits ds := (Text.allDigits_natDigits d.digits).padLeft _
  have hpart : AllDigits part := fun c hc =>
    hdigits c (List.mem_of_mem_drop (hrest ▸ List.mem_append_left _ hc))
  have hlength : places + 1 ≤ ds.length := by
    show places + 1 ≤ (Text.padLeft _ _ _).length
    rw [Text.padLeft, List.length_append, List.length_replicate]
    omega
  have hplaces : part.length + n = places := by
    have hdrop : rest.length = ds.length - (ds.length - places) := List.length_drop
    have := congrArg List.length hrest
    rw [List.length_append, List.length_replicate] at this
    omega
  have hvalue : d.digits = 10 ^ n * Text.digitsValue (whole ++ part) := by
    have hds : ds = whole ++ part ++ List.replicate n '0' := by
      rw [List.append_assoc, ← hrest, List.take_append_drop]
    calc
      d.digits = Text.digitsValue ds := by
        rw [Text.digitsValue_padLeft, Text.digitsValue_natDigits]
      _ = 10 ^ n * Text.digitsValue (whole ++ part) := by
        rw [hds, Text.digitsValue_append, digitsValue_zeros, List.length_replicate, Nat.add_zero]
  refine ⟨whole, part, if_neg (not_le.2 hexp), fun c hc => hdigits c (List.mem_of_mem_take hc),
    ?_, hpart, ?_, fun hne => ?_⟩
  · apply List.ne_nil_of_length_pos
    rw [List.length_take]
    omega
  · have hexp : d.exp = -(places : ℤ) := by omega
    have hpow : (10 : ℚ) ^ places = 10 ^ part.length * 10 ^ n := by rw [← hplaces, pow_add]
    rw [Decimal10.value, hexp, zpow_neg, zpow_natCast, hpow, hvalue]
    push_cast
    field_simp
  · obtain ⟨front, c, hc⟩ := (List.eq_nil_or_concat part).resolve_left hne
    rw [List.concat_eq_append] at hc
    rw [hc, ← List.append_assoc]
    apply digitsValue_mod_ten
    · exact hpart c (by simp [hc])
    · exact hlast c (by simp [hc])

theorem exists_written (d : Decimal10) : ∃ whole part, Written d whole part := by
  rcases le_or_gt 0 d.exp with hexp | hexp
  · exact ⟨_, _, written_whole hexp⟩
  · exact exists_written_places hexp

/-- Written digits are read as the number that they denote, if a decimal has room for it. -/
theorem read?_positional {n s : ℕ} (hvalue : d.value = n / 10 ^ s)
    (hn : n < Decimal.mantissaLimit) (hs : s ≤ 28) (negative : Bool) :
    ∃ b, Decimal.read? (if negative then '-' :: positional d else positional d) = some b ∧
      b.number = (if negative then -(n / 10 ^ s) else n / 10 ^ s : ℚ) := by
  obtain ⟨whole, part, hwritten⟩ := exists_written d
  have hdigits := hwritten.value
  have hlast := hwritten.last
  rw [hvalue] at hdigits
  generalize hv : Text.digitsValue (whole ++ part) = v at hdigits hlast
  have hcross : v * 10 ^ s = n * 10 ^ part.length := by
    rw [div_eq_div_iff (by positivity) (by positivity)] at hdigits
    exact_mod_cast hdigits
  -- without zeros at the end there are no more places than there were
  have hplaces : part.length ≤ s := by
    by_contra hlt
    obtain ⟨k, hk⟩ := Nat.exists_eq_add_of_lt (not_le.1 hlt)
    have hv : v = n * 10 ^ k * 10 := by
      rw [hk, add_assoc, pow_add, pow_succ, mul_comm (10 ^ s), ← mul_assoc, ← mul_assoc] at hcross
      exact Nat.eq_of_mul_eq_mul_right (by positivity) hcross
    refine hlast (List.ne_nil_of_length_pos (by omega)) ?_
    rw [hv, Nat.mul_mod_left]
  have hdata : v ≤ n := by
    obtain ⟨k, rfl⟩ := Nat.exists_eq_add_of_le hplaces
    rw [pow_add, mul_comm (10 ^ part.length), ← mul_assoc] at hcross
    rw [← Nat.eq_of_mul_eq_mul_right (by positivity) hcross]
    exact Nat.le_mul_of_pos_right v (by positivity)
  obtain ⟨b, hread, hmantissa, hscale⟩ := Decimal.read?_pointed hwritten.before hwritten.ne_nil
    hwritten.after (by rw [hv]; omega) (hplaces.trans hs) negative
  refine ⟨b, by rw [hwritten.text]; exact hread, ?_⟩
  rw [Decimal.number, hmantissa, hscale, hv, ← hdigits]
  cases negative with
  | true => simp [neg_div]
  | false => simp

theorem not_isBlank_of_mem {negative : Bool} {c : Char}
    (hc : c ∈ if negative then '-' :: positional d else positional d) :
    Text.isBlank c = false := by
  obtain ⟨whole, part, hwritten⟩ := exists_written d
  rw [hwritten.text] at hc
  have hall : c = '-' ∨ c ∈ pointed whole part := by
    cases negative with
    | true => exact List.mem_cons.1 hc
    | false => exact .inr hc
  rcases hall with rfl | hc
  · decide
  · rcases Decimal.mem_pointed hwritten.before hwritten.after hc with h | rfl
    · exact Text.not_isBlank_of_isDigit h
    · decide

theorem toList_showDouble {x : Double} (hx : x.isFinite = true) :
    (showDouble x).toList = if x.isNegative then '-' :: showSize x else showSize x := by
  have hlt : x.magnitude < Format.double.infinity := of_decide_eq_true hx
  have hnan : x.isNaN = false := decide_eq_false (by omega)
  have hinfinite : x.isInfinite = false := beq_false_of_ne (by omega)
  unfold showDouble
  rw [hnan, hinfinite, if_neg Bool.false_ne_true, if_neg Bool.false_ne_true]
  dsimp only
  split
  · rw [String.toList_append, String.toList_ofList, String.toList_ofList]
    rfl
  · rw [String.toList_ofList]

end Shortest

end RowLedger
