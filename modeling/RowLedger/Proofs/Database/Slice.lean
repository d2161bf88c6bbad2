import Mathlib.Data.List.TakeWhile
import Mathlib.Data.String.Basic
import RowLedger.Database.Arithmetic
import RowLedger.Database.Function

/-!
Slices of texts, as a database takes them. A slice of the right length, at the start of a text or
where its last characters start, is equal to a text exactly when that one begins or ends the other.
If there are not as many characters, no slice is equal to it, wherever it starts.
-/

namespace RowLedger

namespace Datum

/-! Whole numbers that fit. -/

theorem ofInt_of_holds {n : Int} (h : Width.i64.Holds n) : ofInt n = integer ⟨n, h⟩ := by
  rw [ofInt, Sized.ofInt?, dif_pos h]

/-- Places in a text that is not too long. -/
theorem holds_of_le {x : String} {n : Int} (hx : x.length ≤ Width.i64.greatest) (hn : 0 ≤ n)
    (h : n ≤ x.length) : Width.i64.Holds n := by
  simp only [Width.Holds, Width.least, Width.greatest] at *
  omega

theorem arithmetic_of_holds {onInts : Int → Int → Option Int}
    {onFractions : Int × Nat → Int × Nat → Option (Int × Nat)} {m n : Sized .i64} {k : Int}
    (hk : onInts m.val n.val = some k) (h : Width.i64.Holds k) :
    arithmetic onInts onFractions (integer m) (integer n) = integer ⟨k, h⟩ := by
  simp [arithmetic, number, hk, Sized.ofInt?, h]

theorem add_ofInt {m n : Int} (hm : Width.i64.Holds m) (hn : Width.i64.Holds n)
    (h : Width.i64.Holds (m + n)) : add (ofInt m) (ofInt n) = ofInt (m + n) := by
  rw [ofInt_of_holds hm, ofInt_of_holds hn, ofInt_of_holds h]
  exact arithmetic_of_holds rfl h

theorem subtract_ofInt {m n : Int} (hm : Width.i64.Holds m) (hn : Width.i64.Holds n)
    (h : Width.i64.Holds (m - n)) : subtract (ofInt m) (ofInt n) = ofInt (m - n) := by
  rw [ofInt_of_holds hm, ofInt_of_holds hn, ofInt_of_holds h]
  exact arithmetic_of_holds rfl h

/-! Slices. -/

theorem length_part_le {α : Type} (start : Int) (length? : Option Int) (xs : List α) :
    (part start length? xs).length ≤ xs.length := by
  unfold part
  exact ((List.take_sublist _ _).trans (List.drop_sublist _ _)).length_le

theorem part_eq {α : Type} (k n : Nat) (xs : List α) :
    part (k + 1) (some n) xs = (xs.drop k).take n := by
  have hstart : (0 : Int) < k + 1 := by omega
  have hlength : ¬(n : Int) < 0 := by omega
  have hfirst : (k : Int) + 1 - 1 = k := by omega
  have hdrop : (max (k : Int) 0).toNat = k := by omega
  have htake : (max ((k : Int) + n) 0 - max (k : Int) 0).toNat = n := by omega
  simp only [part, if_pos hstart, Option.getD_some, if_neg hlength, hfirst, hdrop, htake]

/-- Without null characters all characters count. -/
theorem size_text {x : String} (h : '\x00' ∉ x.toList) : size (text x) = ofInt x.length := by
  have hall : x.toList.takeWhile (· != '\x00') = x.toList := by
    rw [List.takeWhile_eq_self_iff]
    intro c hc
    rw [bne_iff_ne]
    rintro rfl
    exact h hc
  rw [← String.length_toList, ← congrArg List.length hall]
  rfl

theorem substring_ofInt {x : String} {k n : Nat} (hk : Width.i64.Holds (k + 1))
    (hn : Width.i64.Holds n) :
    substring (text x) (ofInt (k + 1)) (some (ofInt n)) =
      text (String.ofList ((x.toList.drop k).take n)) := by
  rw [ofInt_of_holds hk, ofInt_of_holds hn, ← part_eq]
  rfl

/-- No slice is longer than the text. -/
theorem substring_text (x : String) (start : Datum) (length? : Option Datum) :
    substring (text x) start length? = null ∨
      ∃ s, substring (text x) start length? = text s ∧ s.length ≤ x.length := by
  unfold substring
  split
  · exact .inl rfl
  · refine .inr ⟨_, rfl, ?_⟩
    rw [String.length_ofList, ← String.length_toList]
    exact length_part_le _ _ _

/-! Texts compared as they are. -/

theorem truth?_ofTruth (b? : Option Bool) : (ofTruth b?).truth? = b? := by
  rcases b? with - | b
  · rfl
  · cases b <;> decide

theorem truth?_ofBool (b : Bool) : (ofBool b).truth? = some b := truth?_ofTruth (some b)

/-- The comparison of operands that no column brings together. -/
def plain : Comparing := ⟨none, .binary⟩

/-- Is the comparison of two operands with each other true? -/
def equal (a b : Datum) : Bool := (Operator.eq.apply plain a b).truth? == some true

theorem equal_text (s p : String) : equal (text s) (text p) = decide (s = p) := by
  have horder : (compared plain (text s) (text p) == .eq) = decide (s = p) := by
    rw [Bool.eq_iff_iff, beq_iff_eq, decide_eq_true_iff]
    exact compare_eq_iff_eq
  have hrelates : relates plain (· == .eq) (text s) (text p) = some (decide (s = p)) :=
    congrArg some horder
  rw [equal, Operator.apply, hrelates, truth?_ofTruth]
  cases decide (s = p) <;> rfl

theorem equal_null (b : Datum) : equal null b = false := by
  rw [equal, Operator.apply, relates, isNull, Bool.true_or, if_pos rfl]
  rfl

/-- A slice is not equal to a text that is longer than all there is. -/
theorem equal_substring_of_lt {x p : String} (h : x.length < p.length) (start : Datum)
    (length? : Option Datum) : equal (substring (text x) start length?) (text p) = false := by
  rcases substring_text x start length? with hnull | ⟨s, hs, hlength⟩
  · rw [hnull, equal_null]
  · rw [hs, equal_text, decide_eq_false_iff_not]
    rintro rfl
    omega

/-- Nothing as long as the text is a part of a shorter one. -/
theorem equal_substring_of_short {x p : String} {isPart : Prop} [Decidable isPart]
    (h : x.length < p.length) (hpart : isPart → p.toList.length ≤ x.toList.length) (start : Datum)
    (length? : Option Datum) :
    equal (substring (text x) start length?) (text p) = decide isPart := by
  rw [equal_substring_of_lt h, eq_comm, decide_eq_false_iff_not]
  intro hp
  have := hpart hp
  simp only [String.length_toList] at this
  omega

theorem ofList_eq_iff {cs : List Char} {p : String} : String.ofList cs = p ↔ p.toList = cs := by
  rw [← String.toList_inj, String.toList_ofList, eq_comm]

/-- The slice at the start of a text. -/
theorem equal_start {x : String} (hx : x.length ≤ Width.i64.greatest) (p : String) :
    equal (substring (text x) (ofInt 1) (some (ofInt p.length))) (text p) =
      decide (p.toList <+: x.toList) := by
  rcases lt_or_ge x.length p.length with h | h
  · exact equal_substring_of_short h List.IsPrefix.length_le _ _
  · have hn : Width.i64.Holds p.length := holds_of_le hx (by omega) (by omega)
    have hslice := substring_ofInt (x := x) (k := 0) (by decide) hn
    rw [List.drop_zero] at hslice
    rw [show (1 : Int) = (0 : Nat) + 1 from rfl, hslice, equal_text]
    refine decide_eq_decide.2 ?_
    rw [ofList_eq_iff, List.prefix_iff_eq_take, String.length_toList]

/-- Where the last `n` characters of a text start, as a database counts. -/
def suffixStart (d : Datum) (n : Nat) : Datum := add (subtract d.size (ofInt n)) (ofInt 1)

/-- Whole numbers have a sum, if not a whole one. -/
theorem isNull_add_integer (m n : Sized .i64) : (add (integer m) (integer n)).isNull = false := by
  simp only [add, arithmetic, number]
  cases Sized.ofInt? .i64 (m.val + n.val) <;> rfl

/-- The slice of no characters is the same wherever it starts. -/
theorem substring_zero (x : String) {start : Datum} (h : start.isNull = false) :
    substring (text x) start (some (ofInt (0 : Nat))) = text "" := by
  have hzero : ofInt (0 : Nat) = integer (Sized.zero .i64) := by decide
  have hpart (k : Int) : part k (some 0) x.toList = [] := by
    simp [part]
  rw [hzero, substring, h]
  exact congrArg (fun cs => text (String.ofList cs)) (hpart _)

/-- The slice at the end of a text. -/
theorem equal_end {x : String} (hnull : '\x00' ∉ x.toList) (hx : x.length ≤ Width.i64.greatest)
    (p : String) :
    equal (substring (text x) (suffixStart (text x) p.length) (some (ofInt p.length))) (text p) =
      decide (p.toList <:+ x.toList) := by
  rcases lt_or_ge x.length p.length with h | h
  · exact equal_substring_of_short h List.IsSuffix.length_le _ _
  have hlength : Width.i64.Holds x.length := holds_of_le hx (by omega) le_rfl
  have hn : Width.i64.Holds p.length := holds_of_le hx (by omega) (by omega)
  have hdifference : Width.i64.Holds ((x.length : Int) - p.length) :=
    holds_of_le hx (by omega) (by omega)
  rw [suffixStart, size_text hnull, subtract_ofInt hlength hn hdifference]
  rcases Nat.eq_zero_or_pos p.length with hp | hp
  · -- the start need not be a whole number here, but nothing is taken from it
    obtain rfl := String.length_eq_zero_iff.1 hp
    have hstart := isNull_add_integer ⟨_, hdifference⟩ ⟨1, by decide⟩
    rw [← ofInt_of_holds, ← ofInt_of_holds] at hstart
    rw [String.length_empty] at hstart ⊢
    rw [substring_zero x hstart, equal_text]
    simp
  · -- the characters that are left out, of which there may be none
    obtain ⟨k, hk⟩ := Nat.exists_eq_add_of_le h
    have hstart : ((x.length : Int) - p.length) + 1 = (k : Int) + 1 := by omega
    have hk1 : Width.i64.Holds ((k : Int) + 1) := holds_of_le hx (by omega) (by omega)
    have hdrop : x.toList.length - p.toList.length = k := by
      simp only [String.length_toList]
      omega
    rw [add_ofInt hdifference (by decide) (hstart ▸ hk1), hstart,
      substring_ofInt hk1 hn, equal_text]
    refine decide_eq_decide.2 ?_
    rw [ofList_eq_iff, List.suffix_iff_eq_drop, hdrop, List.take_of_length_le]
    simp only [List.length_drop, String.length_toList]
    omega

end Datum

end RowLedger
