import Mathlib.Data.List.Basic
import Mathlib.Data.List.TakeWhile
import RowLedger.Proofs.Text.Numeral
import RowLedger.Text.Blank

/-! What trimming and splitting make of a text, by the characters that it holds. -/

namespace RowLedger.Text

theorem not_isBlank_of_isDigit {c : Char} (h : c.isDigit = true) : isBlank c = false := by
  obtain ⟨hlo, hhi⟩ := toNat_of_isDigit h
  simp only [isBlank, Bool.or_eq_false_iff, Bool.and_eq_false_iff, decide_eq_false_iff_not,
    beq_eq_false_iff_ne]
  omega

theorem dropWhile_eq_self {p : Char → Bool} {cs : List Char} (h : ∀ c ∈ cs.head?, p c = false) :
    cs.dropWhile p = cs := by
  cases cs with
  | nil => rfl
  | cons c cs => simp [h c rfl]

/-- A text without white space at its ends stays. -/
theorem trim_eq_self {cs : List Char} (hfirst : ∀ c ∈ cs.head?, isBlank c = false)
    (hlast : ∀ c ∈ cs.getLast?, isBlank c = false) : trim cs = cs := by
  have hreverse : ∀ c ∈ cs.reverse.head?, isBlank c = false := by rwa [List.head?_reverse]
  rw [trim, dropWhile_eq_self hfirst, trimEnd, dropWhile_eq_self hreverse, List.reverse_reverse]

theorem trim_of_no_blank {cs : List Char} (h : ∀ c ∈ cs, isBlank c = false) : trim cs = cs :=
  trim_eq_self (fun c hc => h c (List.mem_of_mem_head? hc))
    fun c hc => h c (List.mem_of_getLast? hc)

theorem trim_between_digits {ds es : List Char} (hd : AllDigits ds) (hd' : ds ≠ [])
    (he : AllDigits es) (he' : es ≠ []) (cs : List Char) :
    trim (ds ++ cs ++ es) = ds ++ cs ++ es := by
  apply trim_eq_self
  · intro c hc
    rw [List.append_assoc, List.head?_append_of_ne_nil _ hd'] at hc
    exact not_isBlank_of_isDigit (hd c (List.mem_of_mem_head? hc))
  · intro c hc
    rw [List.getLast?_append_of_ne_nil _ he'] at hc
    exact not_isBlank_of_isDigit (he c (List.mem_of_getLast? hc))

/-- What trimming drops are blanks on both sides. -/
theorem exists_blanks_around (cs : List Char) :
    ∃ before after, (∀ c ∈ before, isBlank c = true) ∧ (∀ c ∈ after, isBlank c = true) ∧
      cs = before ++ trim cs ++ after := by
  let rest := cs.dropWhile isBlank
  refine ⟨cs.takeWhile isBlank, (rest.reverse.takeWhile isBlank).reverse, ?_, ?_, ?_⟩
  · exact fun c hc => List.mem_takeWhile_imp hc
  · exact fun c hc => List.mem_takeWhile_imp (List.mem_reverse.1 hc)
  · have hrest : trim cs ++ (rest.reverse.takeWhile isBlank).reverse = rest := by
      show (rest.reverse.dropWhile isBlank).reverse ++ _ = rest
      rw [← List.reverse_append, List.takeWhile_append_dropWhile, List.reverse_reverse]
    rw [List.append_assoc, hrest, List.takeWhile_append_dropWhile]

/-- A text without blanks is what trimming leaves of it, whatever blanks stand around it. -/
theorem trim_blanks_around {before cs after : List Char} (hbefore : ∀ c ∈ before, isBlank c = true)
    (hafter : ∀ c ∈ after, isBlank c = true) (h : ∀ c ∈ cs, isBlank c = false) (hne : cs ≠ []) :
    trim (before ++ cs ++ after) = cs := by
  have hfirst : ∀ c ∈ (cs ++ after).head?, isBlank c = false := by
    rw [List.head?_append_of_ne_nil _ hne]
    exact fun c hc => h c (List.mem_of_mem_head? hc)
  have hlast : ∀ c ∈ cs.reverse.head?, isBlank c = false :=
    fun c hc => h c (List.mem_reverse.1 (List.mem_of_mem_head? hc))
  rw [trim, List.append_assoc, List.dropWhile_append_of_pos hbefore, dropWhile_eq_self hfirst,
    trimEnd, List.reverse_append,
    List.dropWhile_append_of_pos fun c hc => hafter c (List.mem_reverse.1 hc),
    dropWhile_eq_self hlast, List.reverse_reverse]

/-! A text is split at the first character that marks a place, or at each of them. -/

variable {p : Char → Bool} {cs : List Char} {c : Char}

theorem splitFirst?_eq_none (h : ∀ c ∈ cs, p c = false) : splitFirst? p cs = none := by
  have hdrop : cs.dropWhile (fun c => !p c) = [] := by
    rw [List.dropWhile_eq_nil_iff]
    intro c hc
    rw [h c hc]
    rfl
  rw [splitFirst?, hdrop]

theorem splitFirst?_append (h : ∀ d ∈ cs, p d = false) (hc : p c = true) (rest : List Char) :
    splitFirst? p (cs ++ c :: rest) = some (cs, rest) := by
  have hcs : ∀ d ∈ cs, (!p d) = true := fun d hd => by rw [h d hd]; rfl
  have hdrop : (cs ++ c :: rest).dropWhile (fun c => !p c) = c :: rest := by
    rw [List.dropWhile_append_of_pos hcs, List.dropWhile_cons_of_neg (by simp [hc])]
  have htake : (cs ++ c :: rest).takeWhile (fun c => !p c) = cs := by
    rw [List.takeWhile_append_of_pos hcs, List.takeWhile_cons_of_neg (by simp [hc]),
      List.append_nil]
  rw [splitFirst?, hdrop, htake]

theorem splitAll_eq_singleton (h : ∀ c ∈ cs, p c = false) : splitAll p cs = [cs] := by
  induction cs with
  | nil => rfl
  | cons c cs ih =>
    rw [splitAll, h c List.mem_cons_self, ih fun d hd => h d (List.mem_cons_of_mem c hd)]
    rfl

theorem splitAll_append (h : ∀ d ∈ cs, p d = false) (hc : p c = true) (rest : List Char) :
    splitAll p (cs ++ c :: rest) = cs :: splitAll p rest := by
  induction cs with
  | nil => rw [List.nil_append, splitAll, if_pos hc]
  | cons d cs ih =>
    rw [List.cons_append, splitAll, h d List.mem_cons_self,
      ih fun e he => h e (List.mem_cons_of_mem d he)]
    rfl

/-- The pieces hold no character that marks a place. -/
theorem of_mem_splitAll {piece : List Char} (h : piece ∈ splitAll p cs) :
    ∀ c ∈ piece, p c = false := by
  induction cs generalizing piece with
  | nil =>
    rw [List.mem_singleton.1 h]
    nofun
  | cons c cs ih =>
    rw [splitAll] at h
    split at h
    · rcases List.mem_cons.1 h with rfl | h
      · nofun
      · exact ih h
    · next hc =>
      rw [Bool.not_eq_true] at hc
      split at h
      · rw [List.mem_singleton.1 h]
        simpa using hc
      · next first rest hsplit =>
        rcases List.mem_cons.1 h with rfl | h
        · exact List.forall_mem_cons.2 ⟨hc, ih (hsplit ▸ List.mem_cons_self)⟩
        · exact ih (hsplit ▸ List.mem_cons_of_mem _ h)

theorem eq_of_splitFirst? {before after : List Char} (h : splitFirst? p cs = some (before, after)) :
    ∃ c, cs = before ++ c :: after := by
  unfold splitFirst? at h
  split at h
  · cases h
  · next c rest hdrop =>
    cases h
    exact ⟨c, by rw [← hdrop, List.takeWhile_append_dropWhile]⟩

end RowLedger.Text
