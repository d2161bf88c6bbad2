import RowLedger.Text.Numeral

/-! Numerals are digits, and reading one gives the number that was written. -/

namespace RowLedger.Text

/-- Nothing but digits. -/
def AllDigits (cs : List Char) : Prop := ∀ c ∈ cs, c.isDigit = true

theorem toNat_of_isDigit {c : Char} (h : c.isDigit = true) : 48 ≤ c.toNat ∧ c.toNat ≤ 57 := by
  simp only [Char.isDigit, ge_iff_le, Bool.and_eq_true, decide_eq_true_eq,
    UInt32.le_iff_toNat_le] at h
  exact h

theorem ne_of_isDigit {c d : Char} (h : c.isDigit = true) (hd : d.isDigit = false) : c ≠ d := by
  rintro rfl
  rw [h] at hd
  cases hd

/-! Digits of a number. -/

theorem natDigits_ne_nil (n : Nat) : natDigits n ≠ [] := Nat.toDigits_ne_nil

theorem isDigit_of_mem_natDigits {n : Nat} {c : Char} (h : c ∈ natDigits n) : c.isDigit = true :=
  Nat.isDigit_of_mem_toDigits (by decide) (by decide) h

theorem allDigits_natDigits (n : Nat) : AllDigits (natDigits n) := fun _ => isDigit_of_mem_natDigits

theorem digitsValue_natDigits (n : Nat) : digitsValue (natDigits n) = n :=
  Nat.ofDigitChars_ten_toDigits

theorem natDigits_injective : Function.Injective natDigits := fun m n h => by
  rw [← digitsValue_natDigits m, h, digitsValue_natDigits]

theorem length_natDigits_le {n k : Nat} (hk : 0 < k) (h : n < Nat.pow 10 k) :
    (natDigits n).length ≤ k :=
  (Nat.length_toDigits_le_iff (by decide) hk).2 h

theorem toList_showInt_natCast (n : Nat) : (showInt n).toList = natDigits n := by
  have h : ¬((n : Int) < 0) := by omega
  simp [showInt, intDigits, h]

/-! Digits of a width. -/

theorem AllDigits.padLeft {cs : List Char} (h : AllDigits cs) (width : Nat) :
    AllDigits (padLeft width '0' cs) := by
  intro c hc
  rcases List.mem_append.1 hc with hc | hc
  · rw [List.eq_of_mem_replicate hc]
    rfl
  · exact h c hc

theorem digitsValue_padLeft (width : Nat) (cs : List Char) :
    digitsValue (padLeft width '0' cs) = digitsValue cs := by
  have hzeros (k : Nat) :
      (List.replicate k '0').foldl (fun n c => 10 * n + digitValue c) 0 = 0 := by
    induction k with
    | zero => rfl
    | succ k ih => exact ih
  rw [digitsValue, padLeft, List.foldl_append, hzeros]
  rfl

theorem length_padLeft {width : Nat} {cs : List Char} (h : cs.length ≤ width) (fill : Char) :
    (padLeft width fill cs).length = width := by
  rw [padLeft, List.length_append, List.length_replicate]
  omega

theorem padLeft_ne_nil {cs : List Char} (h : cs ≠ []) (width : Nat) (fill : Char) :
    padLeft width fill cs ≠ [] := by
  simp [padLeft, h]

theorem allDigits_twoDigits (n : Nat) : AllDigits (twoDigits n) := (allDigits_natDigits n).padLeft 2

theorem twoDigits_ne_nil (n : Nat) : twoDigits n ≠ [] := padLeft_ne_nil (natDigits_ne_nil n) 2 '0'

theorem digitsValue_twoDigits (n : Nat) : digitsValue (twoDigits n) = n := by
  rw [twoDigits, digitsValue_padLeft, digitsValue_natDigits]

theorem length_twoDigits {n : Nat} (h : n < 100) : (twoDigits n).length = 2 :=
  length_padLeft (length_natDigits_le (by decide) h) '0'

/-! Reading. -/

theorem readNat?_of_allDigits {cs : List Char} (h : AllDigits cs) (hne : cs ≠ []) :
    readNat? cs = some (digitsValue cs) := by
  have hall : cs.all Char.isDigit = true := List.all_eq_true.2 h
  simp [readNat?, hall, hne]

theorem readNat?_natDigits (n : Nat) : readNat? (natDigits n) = some n := by
  rw [readNat?_of_allDigits (allDigits_natDigits n) (natDigits_ne_nil n), digitsValue_natDigits]

theorem readUnsigned?_natDigits (n : Nat) : readUnsigned? (natDigits n) = some n := by
  have hread := readNat?_natDigits n
  unfold readUnsigned?
  split
  · next cs hcs =>
    have : '+'.isDigit = true := isDigit_of_mem_natDigits (n := n) (hcs ▸ List.mem_cons_self)
    contradiction
  · exact hread

theorem readInt?_of_allDigits {cs : List Char} (h : AllDigits cs) (hne : cs ≠ []) :
    readInt? cs = some (digitsValue cs : Int) := by
  have hread := readNat?_of_allDigits h hne
  unfold readInt?
  split
  · exact absurd (h '+' List.mem_cons_self) (by decide)
  · exact absurd (h '-' List.mem_cons_self) (by decide)
  · rw [hread]
    rfl

/-- An optional sign and at least one digit, with the number that they stand for. -/
inductive Numeral : List Char → Int → Prop
  | plain {ds : List Char} (h : AllDigits ds) (hne : ds ≠ []) : Numeral ds (digitsValue ds)
  | plus {ds : List Char} (h : AllDigits ds) (hne : ds ≠ []) :
    Numeral ('+' :: ds) (digitsValue ds)
  | minus {ds : List Char} (h : AllDigits ds) (hne : ds ≠ []) :
    Numeral ('-' :: ds) (-digitsValue ds)

theorem readNat?_eq_some_iff {cs : List Char} {n : Nat} :
    readNat? cs = some n ↔ (AllDigits cs ∧ cs ≠ []) ∧ digitsValue cs = n := by
  simp [readNat?, AllDigits, and_comm]

theorem readInt?_eq_some_iff {cs : List Char} {n : Int} : readInt? cs = some n ↔ Numeral cs n := by
  constructor
  · intro hread
    unfold readInt? at hread
    split at hread
    all_goals
      obtain ⟨k, hk, rfl⟩ := Option.map_eq_some_iff.1 hread
      obtain ⟨⟨h, hne⟩, rfl⟩ := readNat?_eq_some_iff.1 hk
    · exact .plus h hne
    · exact .minus h hne
    · exact .plain h hne
  · intro hnumeral
    cases hnumeral with
    | plain h hne => exact readInt?_of_allDigits h hne
    | plus h hne => simp [readInt?, readNat?_of_allDigits h hne]
    | minus h hne => simp [readInt?, readNat?_of_allDigits h hne]

theorem Numeral.ne_nil {cs : List Char} {n : Int} (h : Numeral cs n) : cs ≠ [] := by
  cases h with
  | plain h hne => exact hne
  | plus h hne | minus h hne => exact List.cons_ne_nil _ _

/-- Its characters are digits and the two signs. -/
theorem Numeral.mem {cs : List Char} {n : Int} (h : Numeral cs n) {c : Char} (hc : c ∈ cs) :
    c.isDigit = true ∨ c = '+' ∨ c = '-' := by
  cases h with
  | plain h hne => exact .inl (h c hc)
  | plus h hne =>
    rcases List.mem_cons.1 hc with rfl | hc
    · exact .inr (.inl rfl)
    · exact .inl (h c hc)
  | minus h hne =>
    rcases List.mem_cons.1 hc with rfl | hc
    · exact .inr (.inr rfl)
    · exact .inl (h c hc)

end RowLedger.Text
