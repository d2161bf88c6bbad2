import Mathlib.Data.List.TakeWhile
import RowLedger.Database.Token
import RowLedger.Proofs.Text.Delimited
import RowLedger.Proofs.Text.Numeral

/-!
The tokens of a text that is put together from pieces. A piece is cut off as a whole when the next
character cannot belong to it.
-/

namespace RowLedger

namespace Lexeme

/-- The tokens of a text, without what stands between them. -/
def tokensOf (cs : List Char) : List Token := (gather [] (cut cs)).map Lexeme.token

theorem map_token_gather (gap : List Char) (css : List (List Char)) :
    (gather gap css).map Lexeme.token = (gather [] css).map Lexeme.token := by
  induction css generalizing gap with
  | nil => rfl
  | cons cs css ih =>
    rw [gather, gather]
    split
    · rw [ih, ih ([] ++ cs)]
    · rfl

@[simp] theorem tokensOf_nil : tokensOf [] = [] := by
  simp [tokensOf, cut, gather]

theorem tokensOf_cons (c : Char) (cs : List Char) :
    tokensOf (c :: cs) =
      (if isGap (c :: cs.take (sizeAfter c cs)) then []
        else [classify (c :: cs.take (sizeAfter c cs))]) ++
          tokensOf (cs.drop (sizeAfter c cs)) := by
  rw [tokensOf, cut, gather]
  split
  · rw [map_token_gather]
    rfl
  · rfl

/-- A lexeme is cut off at its size. -/
theorem tokensOf_lexeme {c : Char} {cs rest : List Char}
    (hsize : sizeAfter c (cs ++ rest) = cs.length) (hgap : isGap (c :: cs) = false) :
    tokensOf (c :: (cs ++ rest)) = classify (c :: cs) :: tokensOf rest := by
  rw [tokensOf_cons, hsize, List.take_left, List.drop_left, hgap]
  rfl

theorem isGap_of_isSpace {c : Char} {cs : List Char} (h : Datum.isSpace c = true) :
    isGap (c :: cs) = true := by
  unfold isGap
  split
  · rfl
  · rfl
  · next hcs => cases hcs; exact h
  · next hcs => cases hcs

theorem not_isGap {c : Char} {cs : List Char} (hminus : c ≠ '-') (hslash : c ≠ '/')
    (hspace : Datum.isSpace c = false) : isGap (c :: cs) = false := by
  unfold isGap
  split
  · next hcs => cases hcs; exact absurd rfl hminus
  · next hcs => cases hcs; exact absurd rfl hslash
  · next hcs => cases hcs; exact hspace
  · next hcs => cases hcs

/-- White space is at the lower end of all characters. -/
theorem not_isSpace_of_le {c : Char} (h : 33 ≤ c.toNat) : Datum.isSpace c = false := by
  have hs : c ≠ ' ' := by
    rintro rfl
    exact absurd h (by decide)
  have hr : ¬c ≤ '\r' := by
    intro hle
    have := UInt32.le_iff_toNat_le.1 hle
    exact absurd (Nat.le_trans h this) (by decide)
  simp [Datum.isSpace, hs, hr]

theorem tokensOf_run {cs : List Char} :
    tokensOf (cs.drop (runSize Datum.isSpace cs)) = tokensOf cs := by
  cases cs with
  | nil => rfl
  | cons c cs =>
    by_cases hc : Datum.isSpace c = true
    · have hsize : sizeAfter c cs = runSize Datum.isSpace cs := by rw [sizeAfter, if_pos hc]
      rw [tokensOf_cons c cs, isGap_of_isSpace hc, hsize]
      simp [runSize, hc]
    · simp [runSize, hc]

@[simp] theorem tokensOf_space (cs : List Char) : tokensOf (' ' :: cs) = tokensOf cs := by
  have hsize : sizeAfter ' ' cs = runSize Datum.isSpace cs := by rw [sizeAfter, if_pos (by decide)]
  rw [tokensOf_cons, isGap_of_isSpace (by decide), hsize]
  exact tokensOf_run

/-! Symbols. -/

theorem tokensOf_single {c : Char} {cs : List Char} (hsize : sizeAfter c cs = 0)
    (hgap : isGap [c] = false) : tokensOf (c :: cs) = classify [c] :: tokensOf cs := by
  rw [tokensOf_cons, hsize, List.take_zero, List.drop_zero, hgap]
  rfl

theorem tokensOf_pair {c d : Char} {cs : List Char} (hsize : sizeAfter c (d :: cs) = 1)
    (hgap : isGap [c, d] = false) : tokensOf (c :: d :: cs) = classify [c, d] :: tokensOf cs := by
  rw [tokensOf_cons, hsize, List.take_succ_cons, List.take_zero, List.drop_succ_cons,
    List.drop_zero, hgap]
  rfl

@[simp] theorem tokensOf_openParen (cs : List Char) :
    tokensOf ('(' :: cs) = .symbol "(" :: tokensOf cs :=
  tokensOf_single (by cases cs <;> rfl) rfl

@[simp] theorem tokensOf_closeParen (cs : List Char) :
    tokensOf (')' :: cs) = .symbol ")" :: tokensOf cs :=
  tokensOf_single (by cases cs <;> rfl) rfl

@[simp] theorem tokensOf_comma (cs : List Char) :
    tokensOf (',' :: cs) = .symbol "," :: tokensOf cs :=
  tokensOf_single (by cases cs <;> rfl) rfl

@[simp] theorem tokensOf_plus (cs : List Char) :
    tokensOf ('+' :: cs) = .symbol "+" :: tokensOf cs :=
  tokensOf_single (by cases cs <;> rfl) rfl

/-- May the characters come next after anything? -/
def Breaks (cs : List Char) : Prop := ∀ c ∈ cs.head?, c ∈ [' ', '(', ')', ',', '+']

theorem breaks_nil : Breaks [] := nofun

theorem breaks_cons {c : Char} {cs : List Char} (h : c ∈ [' ', '(', ')', ',', '+']) :
    Breaks (c :: cs) := by
  intro d hd
  cases hd
  exact h

theorem Breaks.head?_ne {c : Char} {cs : List Char} (h : Breaks cs)
    (hc : c ∉ [' ', '(', ')', ',', '+']) : cs.head? ≠ some c :=
  fun hcs => hc (h c hcs)

/-- A run ends where it breaks. -/
theorem runSize_append {p : Char → Bool} {cs rest : List Char} (hcs : cs.all p = true)
    (hrest : Breaks rest) (hp : [' ', '(', ')', ',', '+'].any p = false) :
    runSize p (cs ++ rest) = cs.length := by
  have hnil : rest.takeWhile p = [] := by
    cases rest with
    | nil => rfl
    | cons c rest => exact List.takeWhile_cons_of_neg (List.any_eq_false.1 hp c (hrest c rfl))
  rw [runSize, List.takeWhile_append_of_pos (List.all_eq_true.1 hcs), hnil, List.append_nil]

/-! Words. -/

theorem not_inWord : [' ', '(', ')', ',', '+'].any inWord = false := by decide

theorem toNat_of_startsWord {c : Char} (h : startsWord c = true) : 65 ≤ c.toNat := by
  have hupper : c.isUpper = decide (65 ≤ c.val ∧ c.val ≤ 90) := rfl
  have hlower : c.isLower = (decide (97 ≤ c.val) && decide (c.val ≤ 122)) := rfl
  have halpha : c.isAlpha = (c.isUpper || c.isLower) := rfl
  simp only [startsWord, halpha, hupper, hlower, Bool.or_eq_true, Bool.and_eq_true,
    decide_eq_true_eq, beq_iff_eq, UInt32.le_iff_toNat_le] at h
  unfold Char.toNat
  rcases h with ((h | h) | rfl) | h
  · exact h.1
  · exact Nat.le_trans (by decide) h.1
  · decide
  · exact Nat.le_trans (by decide) h

theorem ne_of_startsWord {c d : Char} (h : startsWord c = true) (hd : startsWord d = false) :
    c ≠ d := by
  rintro rfl
  rw [h] at hd
  cases hd

theorem not_isSpace_of_startsWord {c : Char} (h : startsWord c = true) :
    Datum.isSpace c = false :=
  not_isSpace_of_le (Nat.le_trans (by decide) (toNat_of_startsWord h))

theorem head?_ne_quote {cs rest : List Char} (hcs : cs.all inWord = true) (hrest : Breaks rest) :
    (cs ++ rest).head? ≠ some '\'' := by
  cases cs with
  | nil => exact hrest.head?_ne (by decide)
  | cons d cs =>
    intro h
    cases h
    exact absurd (Bool.and_eq_true_iff.1 hcs).1 (by decide)

theorem sizeAfter_word {c : Char} {cs rest : List Char} (hc : startsWord c = true)
    (hcs : cs.all inWord = true) (hrest : Breaks rest) :
    sizeAfter c (cs ++ rest) = cs.length := by
  have hminus : c ≠ '-' := ne_of_startsWord hc (by decide)
  have hslash : c ≠ '/' := ne_of_startsWord hc (by decide)
  have hquote := head?_ne_quote hcs hrest
  have hrun := runSize_append hcs hrest not_inWord
  simp only [sizeAfter, not_isSpace_of_startsWord hc, hc, beq_false_of_ne hminus,
    beq_false_of_ne hslash, beq_false_of_ne hquote, Bool.false_and, Bool.and_false,
    Bool.false_eq_true, if_false, if_true, hrun]

theorem classify_word {c : Char} {cs : List Char} (hc : startsWord c = true)
    (hcs : cs.all inWord = true) : classify (c :: cs) = .word (String.ofList (c :: cs)) := by
  have hquote : cs.head? ≠ some '\'' := by
    simpa using head?_ne_quote hcs breaks_nil
  unfold classify
  split
  case h_1 heq => cases heq
  case h_8 heq =>
    obtain ⟨rfl, rfl⟩ := List.cons.inj heq
    simp [hquote, hc]
  all_goals
    next heq =>
    cases heq
    exact absurd hc (by decide)

theorem tokensOf_word {c : Char} {cs rest : List Char} (hc : startsWord c = true)
    (hcs : cs.all inWord = true) (hrest : Breaks rest) :
    tokensOf (c :: (cs ++ rest)) = .word (String.ofList (c :: cs)) :: tokensOf rest := by
  have hgap : isGap (c :: cs) = false :=
    not_isGap (ne_of_startsWord hc (by decide)) (ne_of_startsWord hc (by decide))
      (not_isSpace_of_startsWord hc)
  rw [tokensOf_lexeme (sizeAfter_word hc hcs hrest) hgap, classify_word hc hcs]

/-! Quoted names and texts, marks of parameters, numerals. -/

theorem quotedSize_doubling {close : Char} {rest : List Char} (cs : List Char)
    (h : rest.head? ≠ some close) :
    quotedSize close (Text.doubling close cs ++ close :: rest) =
      (Text.doubling close cs ++ [close]).length := by
  rw [quotedSize, Text.readDoubled?_doubling cs h]
  simp only [List.length_append, List.length_cons, List.length_nil]
  omega

theorem unquoted?_doubling {close : Char} (cs : List Char) :
    unquoted? close (Text.doubling close cs ++ [close]) = some (String.ofList cs) := by
  rw [unquoted?, Text.readDoubled?_doubling cs (by simp)]

theorem tokensOf_name {rest : List Char} (s : String) (h : Breaks rest) :
    tokensOf (Text.delimitedChars '"' '"' s ++ rest) = .name s true :: tokensOf rest := by
  have hsize : sizeAfter '"' ((Text.doubling '"' s.toList ++ ['"']) ++ rest) =
      (Text.doubling '"' s.toList ++ ['"']).length := by
    rw [List.append_assoc, ← quotedSize_doubling s.toList (h.head?_ne (by decide))]
    rfl
  have hclass : classify ('"' :: (Text.doubling '"' s.toList ++ ['"'])) = .name s true := by
    simp [classify, unquoted?_doubling]
  have := tokensOf_lexeme hsize rfl
  rw [hclass] at this
  simpa [Text.delimitedChars] using this

theorem tokensOf_text {rest : List Char} (s : String) (h : Breaks rest) :
    tokensOf (Text.delimitedChars '\'' '\'' s ++ rest) = .text s :: tokensOf rest := by
  have hsize : sizeAfter '\'' ((Text.doubling '\'' s.toList ++ ['\'']) ++ rest) =
      (Text.doubling '\'' s.toList ++ ['\'']).length := by
    rw [List.append_assoc, ← quotedSize_doubling s.toList (h.head?_ne (by decide))]
    rfl
  have hclass : classify ('\'' :: (Text.doubling '\'' s.toList ++ ['\''])) = .text s := by
    simp [classify, unquoted?_doubling]
  have := tokensOf_lexeme hsize rfl
  rw [hclass] at this
  simpa [Text.delimitedChars] using this

theorem tokensOf_hole {rest : List Char} (h : Breaks rest) :
    tokensOf ('?' :: rest) = .parameter none :: tokensOf rest := by
  have hsize : runSize Char.isDigit ([] ++ rest) = 0 := runSize_append rfl h (by decide)
  exact tokensOf_single hsize rfl

theorem scanExponent_breaks {rest : List Char} (h : Breaks rest) :
    Datum.scanExponent rest = none := by
  cases rest with
  | nil => rfl
  | cons c rest =>
    have he : c ≠ 'e' := fun hc => h.head?_ne (c := 'e') (by decide) (by rw [hc]; rfl)
    have hE : c ≠ 'E' := fun hc => h.head?_ne (c := 'E') (by decide) (by rw [hc]; rfl)
    simp [Datum.scanExponent, he, hE]

theorem numeralSize_append {ds rest : List Char} (hds : ds.all Char.isDigit = true)
    (h : Breaks rest) : numeralSize (ds ++ rest) = ds.length := by
  have hwhole : runSize Char.isDigit (ds ++ rest) = ds.length := runSize_append hds h (by decide)
  have hword : runSize inWord ([] ++ rest) = 0 := runSize_append rfl h not_inWord
  have hexp : exponentSize rest = 0 := by rw [exponentSize, scanExponent_breaks h]
  rw [List.nil_append] at hword
  have hpart : rest.head? ≠ some '.' := h.head?_ne (by decide)
  simp only [numeralSize, hwhole, List.drop_left]
  split
  · exact absurd rfl hpart
  · simp only [List.drop_zero, hexp, hword, Nat.add_zero]

theorem scanNumber_natDigits (n : Nat) :
    Datum.scanNumber (Text.natDigits n) = some (Datum.ofInt n, []) := by
  have hall : ∀ c ∈ Text.natDigits n, c.isDigit = true := fun c => Text.isDigit_of_mem_natDigits
  have htake : (Text.natDigits n).takeWhile Char.isDigit = Text.natDigits n :=
    List.takeWhile_eq_self_iff.2 hall
  have hdrop : (Text.natDigits n).dropWhile Char.isDigit = [] :=
    List.dropWhile_eq_nil_iff.2 hall
  have hunsigned : Datum.scanUnsigned false (Text.natDigits n) = some (Datum.ofInt n, []) := by
    simp [Datum.scanUnsigned, htake, hdrop, Text.natDigits_ne_nil, Datum.scanExponent,
      Text.digitsValue_natDigits]
  unfold Datum.scanNumber
  split
  · next heq => exact absurd (hall '-' (by rw [heq]; simp)) (by decide)
  · next heq => exact absurd (hall '+' (by rw [heq]; simp)) (by decide)
  · exact hunsigned

theorem not_startsWord_of_isDigit {c : Char} (h : c.isDigit = true) : startsWord c = false := by
  have hc := Text.toNat_of_isDigit h
  by_contra hw
  have := toNat_of_startsWord (Bool.not_eq_false _ ▸ hw)
  omega

theorem classify_natDigits (n : Nat) :
    classify (Text.natDigits n) = .number (Datum.ofInt n) := by
  have hscan := scanNumber_natDigits n
  have hdigit : ∀ c ∈ (Text.natDigits n).head?, c.isDigit = true :=
    fun c hc => Text.isDigit_of_mem_natDigits (List.mem_of_mem_head? hc)
  unfold classify
  split
  case h_1 heq => exact absurd heq (Text.natDigits_ne_nil n)
  case h_8 c r _ _ _ _ _ _ heq =>
    have hc := hdigit c (by rw [heq]; rfl)
    have hx : c ≠ 'x' := Text.ne_of_isDigit hc (by decide)
    have hX : c ≠ 'X' := Text.ne_of_isDigit hc (by decide)
    simp [hx, hX, not_startsWord_of_isDigit hc, hc, hscan]
  all_goals
    next heq =>
    exact absurd (hdigit _ (by rw [heq]; rfl)) (by decide)

theorem sizeAfter_digit {c : Char} {cs : List Char} (hc : c.isDigit = true) :
    sizeAfter c cs = numeralSize (c :: cs) - 1 := by
  have hs : Datum.isSpace c = false :=
    not_isSpace_of_le (Nat.le_trans (by decide) (Text.toNat_of_isDigit hc).1)
  have hminus : c ≠ '-' := Text.ne_of_isDigit hc (by decide)
  have hslash : c ≠ '/' := Text.ne_of_isDigit hc (by decide)
  have hx : c ≠ 'x' := Text.ne_of_isDigit hc (by decide)
  have hX : c ≠ 'X' := Text.ne_of_isDigit hc (by decide)
  simp [sizeAfter, hs, hminus, hslash, hx, hX, not_startsWord_of_isDigit hc, hc]

theorem tokensOf_numeral {rest : List Char} (n : Nat) (h : Breaks rest) :
    tokensOf (Text.natDigits n ++ rest) = .number (Datum.ofInt n) :: tokensOf rest := by
  have hall : ∀ c ∈ Text.natDigits n, c.isDigit = true := fun c => Text.isDigit_of_mem_natDigits
  have hclass := classify_natDigits n
  have hsize := numeralSize_append (List.all_eq_true.2 hall) h
  obtain ⟨c, cs, hcs⟩ := List.exists_cons_of_ne_nil (Text.natDigits_ne_nil n)
  rw [hcs] at hall hclass hsize ⊢
  have hc : c.isDigit = true := hall c List.mem_cons_self
  have hafter : sizeAfter c (cs ++ rest) = cs.length := by
    rw [sizeAfter_digit hc, ← List.cons_append, hsize]
    rfl
  have hgap : isGap (c :: cs) = false :=
    not_isGap (Text.ne_of_isDigit hc (by decide)) (Text.ne_of_isDigit hc (by decide))
      (not_isSpace_of_le (Nat.le_trans (by decide) (Text.toNat_of_isDigit hc).1))
  rw [List.cons_append, tokensOf_lexeme hafter hgap, hclass]

end Lexeme

end RowLedger
