import RowLedger.Proofs.Database.Phrase

/-!
A phrase is read back as its term when it is grouped. The induction is on the phrase; the fuel that
is left after a part is what the rest needs.
-/

namespace RowLedger

namespace Grammar

variable {α β : Type} {l : Lexeme} {ls : List Lexeme} {c : Bool} {n : Nat} {w : String}

theorem bind_run {x : Reader α} {f : α → Reader β} {a : α} {s s' : State}
    (h : x s = .ok (a, s')) : (x >>= f) s = f a s' := by
  change (x s >>= fun p => f p.1 p.2) = _
  rw [h]
  rfl

theorem take?_some {f : Lexeme → Option α} {a : α} (h : f l = some a) :
    take? f ⟨l :: ls, c, n⟩ = .ok (some a, ⟨ls, c, n⟩) := by
  simp [take?, h]

theorem take?_none {f : Lexeme → Option α} (h : ∀ l ∈ ls.head?, f l = none) :
    take? f ⟨ls, c, n⟩ = .ok (none, ⟨ls, c, n⟩) := by
  cases ls with
  | nil => rfl
  | cons l ls => simp [take?, h l rfl]

theorem take_some {f : Lexeme → Option α} {a : α} (h : f l = some a) :
    take f ⟨l :: ls, c, n⟩ = .ok (a, ⟨ls, c, n⟩) := by
  rw [take, bind_run (take?_some h)]
  rfl

theorem found_true {p : Lexeme → Bool} (h : p l = true) :
    found p ⟨l :: ls, c, n⟩ = .ok (true, ⟨ls, c, n⟩) := by
  have ht : take? (fun l => if p l then some () else none) ⟨l :: ls, c, n⟩ =
      .ok (some (), ⟨ls, c, n⟩) := take?_some (by simp [h])
  change (take? _ _ >>= fun q => _) = _
  rw [ht]
  rfl

theorem found_false {p : Lexeme → Bool} (h : ∀ l ∈ ls.head?, p l = false) :
    found p ⟨ls, c, n⟩ = .ok (false, ⟨ls, c, n⟩) := by
  have ht : take? (fun l => if p l then some () else none) ⟨ls, c, n⟩ =
      .ok (none, ⟨ls, c, n⟩) := take?_none fun l hl => by simp [h l hl]
  change (take? _ _ >>= fun q => _) = _
  rw [ht]
  rfl

theorem symbol?_true (h : l.token = .symbol w) :
    symbol? w ⟨l :: ls, c, n⟩ = .ok (true, ⟨ls, c, n⟩) :=
  found_true (by simp [isSymbol, h])

theorem symbol?_false (h : ∀ l ∈ ls.head?, l.token ≠ .symbol w) :
    symbol? w ⟨ls, c, n⟩ = .ok (false, ⟨ls, c, n⟩) :=
  found_false fun l hl => by simpa [isSymbol] using h l hl

theorem symbol_ok (h : l.token = .symbol w) :
    symbol w ⟨l :: ls, c, n⟩ = .ok ((), ⟨ls, c, n⟩) :=
  take_some (by simp [isSymbol, h])

theorem word?_true {v : String} (h : l.token = .word v) (hv : Text.sameName v w = true) :
    word? w ⟨l :: ls, c, n⟩ = .ok (true, ⟨ls, c, n⟩) :=
  found_true (by simp [isWord, h, hv])

theorem word?_false (h : ∀ l ∈ ls.head?, isWord w l = false) :
    word? w ⟨ls, c, n⟩ = .ok (false, ⟨ls, c, n⟩) := found_false h

/-- An operand that starts with no sign, negation or parenthesis. -/
def primary (fuel : Nat) : Reader NamedTerm := do
  match ← take? literal with
  | some d => return .literal d
  | none =>
    match ← take? hole with
    | some n => parameter n
    | none =>
      let (s, maybeText) ← take columnWord
      if ← symbol? "(" then call s fuel
      else if ← symbol? "." then return .column { table := some s, name := ← name }
      else return .column { name := s, maybeText }

/-- Does a token start no operand but a primary one? -/
def Plain (t : Token) : Prop :=
  (∀ w ∈ ["-", "+", "~", "("], t ≠ .symbol w) ∧
    ∀ w, t = .word w → Text.sameName w "not" = false

theorem operand_primary {fuel : Nat} (h : Plain l.token) :
    operand (fuel + 1) ⟨l :: ls, c, n⟩ = primary fuel ⟨l :: ls, c, n⟩ := by
  have hsymbol (w : String) (hw : w ∈ ["-", "+", "~", "("]) :
      symbol? w ⟨l :: ls, c, n⟩ = .ok (false, ⟨l :: ls, c, n⟩) :=
    symbol?_false (by simpa using h.1 w hw)
  have hword : isWord "not" l = false := by
    unfold isWord
    split
    · next v hv => exact h.2 v hv
    · rfl
  rw [operand, bind_run (hsymbol "-" (by simp)), if_neg Bool.false_ne_true,
    bind_run (hsymbol "+" (by simp)), if_neg Bool.false_ne_true,
    bind_run (hsymbol "~" (by simp)), if_neg Bool.false_ne_true,
    bind_run (word?_false (by simpa using hword)), if_neg Bool.false_ne_true,
    bind_run (hsymbol "(" (by simp)), if_neg Bool.false_ne_true]
  rfl

theorem operand_not {fuel : Nat} {t : NamedTerm} {s : State} (h : l.token = .word "NOT")
    (ht : termFrom 4 fuel ⟨ls, c, n⟩ = .ok (t, s)) :
    operand (fuel + 1) ⟨l :: ls, c, n⟩ = .ok (.not t, s) := by
  have hsymbol (w : String) :
      symbol? w ⟨l :: ls, c, n⟩ = .ok (false, ⟨l :: ls, c, n⟩) :=
    symbol?_false (by simp [h])
  rw [operand, bind_run (hsymbol "-"), if_neg Bool.false_ne_true, bind_run (hsymbol "+"),
    if_neg Bool.false_ne_true, bind_run (hsymbol "~"), if_neg Bool.false_ne_true,
    bind_run (word?_true h (by decide)), if_pos rfl, bind_run ht]
  rfl

theorem operand_paren {fuel m : Nat} {t : NamedTerm} {r : Lexeme} {rest : List Lexeme}
    (hl : l.token = .symbol "(") (hr : r.token = .symbol ")")
    (ht : termFrom 1 fuel ⟨ls, c, n⟩ = .ok (t, ⟨r :: rest, c, m⟩)) :
    operand (fuel + 1) ⟨l :: ls, c, n⟩ = .ok (t, ⟨rest, c, m⟩) := by
  have hsymbol (w : String) (hw : w ≠ "(") :
      symbol? w ⟨l :: ls, c, n⟩ = .ok (false, ⟨l :: ls, c, n⟩) :=
    symbol?_false (by simpa [hl] using hw.symm)
  rw [operand, bind_run (hsymbol "-" (by decide)), if_neg Bool.false_ne_true,
    bind_run (hsymbol "+" (by decide)), if_neg Bool.false_ne_true,
    bind_run (hsymbol "~" (by decide)), if_neg Bool.false_ne_true,
    bind_run (word?_false (by simp [isWord, hl])), if_neg Bool.false_ne_true,
    bind_run (symbol?_true hl), if_pos rfl, bind_run ht, bind_run (symbol_ok hr)]
  rfl

theorem operand_literal {fuel : Nat} {d : Datum} (h : l.token = Phrase.literalToken d) :
    operand (fuel + 1) ⟨l :: ls, c, n⟩ = .ok (.literal d, ⟨ls, c, n⟩) := by
  have hp : Plain l.token := by
    rw [h]
    cases d <;> simp [Plain, Phrase.literalToken]
    decide
  have hd : literal l = some d := by
    unfold literal
    rw [h]
    cases d <;> rfl
  rw [operand_primary hp, primary, bind_run (take?_some hd)]
  rfl

theorem operand_hole {fuel : Nat} (h : l.token = .parameter none) :
    operand (fuel + 1) ⟨l :: ls, c, n⟩ = .ok (.parameter (n + 1), ⟨ls, c, n + 1⟩) := by
  have hh : hole l = some none := by simp [hole, h]
  rw [operand_primary (by simp [h, Plain]), primary,
    bind_run (take?_none (by simp [literal, h]))]
  dsimp only
  rw [bind_run (take?_some hh)]
  rfl

/-- The name of a column or of a function is what no literal and no hole is. -/
theorem primary_word {fuel : Nat} {s : String} {maybeText : Bool} (hliteral : literal l = none)
    (hhole : hole l = none) (h : columnWord l = some (s, maybeText)) :
    primary fuel ⟨l :: ls, c, n⟩ = (do
      if ← symbol? "(" then call s fuel
      else if ← symbol? "." then return .column { table := some s, name := ← name }
      else return .column { name := s, maybeText } : Reader NamedTerm) ⟨ls, c, n⟩ := by
  rw [primary, bind_run (take?_none (by simpa using hliteral))]
  dsimp only
  rw [bind_run (take?_none (by simpa using hhole))]
  dsimp only
  rw [bind_run (take_some h)]

theorem operand_name {fuel : Nat} {s : String} (h : l.token = .name s true)
    (hcall : ∀ l ∈ ls.head?, l.token ≠ .symbol "(")
    (hdot : ∀ l ∈ ls.head?, l.token ≠ .symbol ".") :
    operand (fuel + 1) ⟨l :: ls, c, n⟩ =
      .ok (.column { name := s, maybeText := true }, ⟨ls, c, n⟩) := by
  have hcolumn : columnWord l = some (s, true) := by simp [columnWord, h]
  rw [operand_primary (by simp [h, Plain]),
    primary_word (by simp [literal, h]) (by simp [hole, h]) hcolumn,
    bind_run (symbol?_false hcall), if_neg Bool.false_ne_true,
    bind_run (symbol?_false hdot), if_neg Bool.false_ne_true]
  rfl

theorem operand_call {fuel : Nat} {p : Lexeme} (h : l.token = .word w) (hw : IsFree w)
    (hp : p.token = .symbol "(") :
    operand (fuel + 1) ⟨l :: p :: ls, c, n⟩ = call w fuel ⟨ls, c, n⟩ := by
  have hfree (v : String) (hv : v ∈ reserved) : Text.sameName w v = false := by
    simpa using List.any_eq_false.1 hw v hv
  have hnull := hfree "null" (by decide)
  have hplain : Plain l.token := by
    refine ⟨by simp [h], fun v hv => ?_⟩
    rw [h] at hv
    cases hv
    exact hfree "not" (by decide)
  have hcolumn : columnWord l = some (w, false) := by
    have hw : ¬(reserved.any (Text.sameName w) = true) := by rw [hw]; decide
    simp only [columnWord, identifier, h, if_neg hw, Option.map_some]
  rw [operand_primary hplain,
    primary_word (by simp [literal, h, hnull]) (by simp [hole, h]) hcolumn,
    bind_run (symbol?_true hp), if_pos rfl]

/-- Does no suffix of that strength come next? -/
def Stops (least : Nat) (ls : List Lexeme) : Prop := ∀ l ∈ ls.head?, suffixFrom least l = none

theorem Stops.mono {k m : Nat} (h : Stops k ls) (hkm : k ≤ m) : Stops m ls := by
  intro l hl
  have := h l hl
  rw [suffixFrom, Option.filter_eq_none_iff] at this ⊢
  intro e he hm
  exact this e he (by simp only [decide_eq_true_eq] at hm ⊢; omega)

theorem suffixFrom_eq {least k : Nat} {x : Suffix} (h : suffix l = some (k, x)) :
    suffixFrom least l = if least ≤ k then some (k, x) else none := by
  rw [suffixFrom, h, Option.filter_some]
  simp only [decide_eq_true_eq]

theorem stops_of_suffix {least k : Nat} {x : Suffix} (h : suffix l = some (k, x))
    (hk : k < least) : Stops least (l :: ls) := by
  intro l' hl'
  cases hl'
  rw [suffixFrom_eq h, if_neg (by omega)]

theorem suffixed_stop {least fuel : Nat} {t : NamedTerm} (h : Stops least ls) :
    suffixed least t fuel ⟨ls, c, n⟩ = .ok (t, ⟨ls, c, n⟩) := by
  cases fuel with
  | zero => rfl
  | succ fuel =>
    rw [suffixed, bind_run (take?_none h)]
    rfl

theorem suffixed_step {least fuel k : Nat} {x : Suffix} {t u : NamedTerm} {s : State}
    (h : suffix l = some (k, x)) (hk : least ≤ k)
    (hu : withSuffix t k x fuel ⟨ls, c, n⟩ = .ok (u, s)) :
    suffixed least t (fuel + 1) ⟨l :: ls, c, n⟩ = suffixed least u fuel s := by
  have hx : suffixFrom least l = some (k, x) := by rw [suffixFrom_eq h, if_pos hk]
  rw [suffixed, bind_run (take?_some hx)]
  exact bind_run hu

theorem termFrom_of_operand {least fuel : Nat} {t : NamedTerm} {s s' : State}
    (h : operand fuel s = .ok (t, s')) :
    termFrom least (fuel + 1) s = suffixed least t fuel s' := by
  rw [termFrom]
  exact bind_run h

/-- What the first lexeme of an operator starts. -/
theorem suffix_operator {op : Operator} {o : Lexeme} {os : List Lexeme}
    (h : (o :: os).map Lexeme.token = op.tokens) :
    suffix o = some (op.strength, if op = .is ∨ op = .isNot then .is else .operator op) := by
  have ho : o.token :: os.map Lexeme.token = op.tokens := h
  cases op <;> injection ho with ho _ <;> rw [suffix, ho] <;> rfl

/-- What an operator makes of the term before it, its first lexeme being taken. -/
theorem withSuffix_operator {fuel : Nat} {op : Operator} {t u : NamedTerm} {s : State}
    {o : Lexeme} {os : List Lexeme} (ho : (o :: os).map Lexeme.token = op.tokens)
    (his : op = .is → ∀ l ∈ ls.head?, isWord "not" l = false)
    (hu : termFrom (op.strength + 1) fuel ⟨ls, c, n⟩ = .ok (u, s)) :
    withSuffix t op.strength (if op = .is ∨ op = .isNot then .is else .operator op) (fuel + 1)
      ⟨os ++ ls, c, n⟩ = .ok (.binary op t u, s) := by
  by_cases h : op = .is ∨ op = .isNot
  · rw [if_pos h, withSuffix]
    rcases h with rfl | rfl
    · obtain ⟨-, rfl⟩ : o.token = .word "is" ∧ os = [] := by simpa [Operator.tokens] using ho
      rw [List.nil_append, bind_run (word?_false (his rfl)), if_neg Bool.false_ne_true]
      exact bind_run hu
    · obtain ⟨-, o', rfl, ho'⟩ :
          o.token = .word "is" ∧ ∃ o', os = [o'] ∧ o'.token = .word "not" := by
        simpa [Operator.tokens] using ho
      rw [List.cons_append, List.nil_append, bind_run (word?_true ho' (by decide)), if_pos rfl]
      exact bind_run hu
  · obtain rfl : os = [] := by
      cases op <;> simp_all [Operator.tokens]
    rw [if_neg h, withSuffix, List.nil_append]
    exact bind_run hu

theorem suffixed_binary {least fuel : Nat} {op : Operator} {t u : NamedTerm} {s : State}
    {os : List Lexeme} (ho : os.map Lexeme.token = op.tokens) (hk : least ≤ op.strength)
    (his : op = .is → ∀ l ∈ ls.head?, isWord "not" l = false)
    (hu : termFrom (op.strength + 1) fuel ⟨ls, c, n⟩ = .ok (u, s)) :
    suffixed least t (fuel + 2) ⟨os ++ ls, c, n⟩ =
      suffixed least (.binary op t u) (fuel + 1) s := by
  cases os with
  | nil => cases op <;> cases ho
  | cons o os =>
    exact suffixed_step (suffix_operator ho) hk (withSuffix_operator ho his hu)

theorem suffixed_like {least fuel : Nat} {t u : NamedTerm} {s : State} (hk : least ≤ 4)
    (hl : l.token = .word "like") (hu : termFrom 5 fuel ⟨ls, c, n⟩ = .ok (u, s)) :
    suffixed least t (fuel + 2) ⟨l :: ls, c, n⟩ = suffixed least (.like t u) (fuel + 1) s := by
  have hsuffix : suffix l = some (4, .like) := by
    rw [suffix, hl]
    rfl
  refine suffixed_step hsuffix hk ?_
  rw [withSuffix, bind_run hu]
  rfl

theorem suffixed_among {least fuel : Nat} {t : NamedTerm} {us : List NamedTerm} {s : State}
    {p : Lexeme} (hk : least ≤ 4) (hl : l.token = .word "in") (hp : p.token = .symbol "(")
    (hu : closedList fuel ⟨ls, c, n⟩ = .ok (us, s)) :
    suffixed least t (fuel + 2) ⟨l :: p :: ls, c, n⟩ =
      suffixed least (.among t us) (fuel + 1) s := by
  have hsuffix : suffix l = some (4, .among) := by
    rw [suffix, hl]
    rfl
  refine suffixed_step hsuffix hk ?_
  rw [withSuffix, bind_run (symbol_ok hp), bind_run hu]
  rfl

end Grammar

namespace Phrase

open Grammar

/-- What may come after a phrase: nothing that it would take in. -/
structure Ends (p : Phrase) (rest : List Lexeme) : Prop where
  noCall : ∀ l ∈ rest.head?, l.token ≠ .symbol "(" ∧ l.token ≠ .symbol "."
  stops : Stops (p.strength + 1) rest
  stopsNot : p.isOpen = true → Stops 4 rest

/-- Read where operators of a strength are awaited, the phrase is the term before what follows. -/
def Reads (p : Phrase) : Prop :=
  ∀ (ls rest : List Lexeme) (c : Bool) (n least fuel : Nat),
    ls.map Lexeme.token = p.tokens → least ≤ p.strength ∨ p.isNot = true → p.Ends rest →
    4 * ls.length < fuel →
      ∃ fuel', fuel ≤ fuel' + 4 * ls.length ∧
        termFrom least fuel ⟨ls ++ rest, c, n⟩ =
          suffixed least (p.term n) fuel' ⟨rest, c, n + p.holes⟩

theorem Reads.whole {p : Phrase} {ls rest : List Lexeme} {c : Bool} {n least fuel : Nat}
    (h : p.Reads) (hls : ls.map Lexeme.token = p.tokens)
    (hleast : least ≤ p.strength ∨ p.isNot = true) (hends : p.Ends rest)
    (hstops : Stops least rest) (hfuel : 4 * ls.length < fuel) :
    termFrom least fuel ⟨ls ++ rest, c, n⟩ =
      .ok (p.term n, ⟨rest, c, n + p.holes⟩) := by
  obtain ⟨fuel', -, h⟩ := h ls rest c n least fuel hls hleast hends hfuel
  rw [h, suffixed_stop hstops]

theorem tokens_eq_cons (p : Phrase) :
    ∃ t ts, p.tokens = t :: ts ∧ t ≠ .symbol ")" ∧ t ≠ .symbol "*" := by
  induction p using Phrase.rec (motive_2 := fun _ => True) with
  | name s | hole | not p _ | call f ps _ => exact ⟨_, _, rfl, nofun, nofun⟩
  | literal d => cases d <;> exact ⟨_, _, rfl, nofun, nofun⟩
  | paren p _ => exact ⟨_, _, rfl, by decide, by decide⟩
  | binary op a b iha _ | like a b iha _ | among a ps iha _ =>
    obtain ⟨t, ts, ht, h⟩ := iha
    exact ⟨t, _, by rw [tokens, ht]; rfl, h⟩
  | nil | cons => trivial

/-- No `not` stands in front of a phrase that binds more strongly than comparisons. -/
theorem Grouped.first_ne_not {p : Phrase} (h : p.Grouped) (hs : 4 < p.strength) :
    ∀ w, p.tokens.head? = some (.word w) → Text.sameName w "not" = false := by
  induction p using Phrase.rec (motive_2 := fun _ => True) with
  | name s | hole | paren p _ => intro w hw; cases hw
  | literal d =>
    intro w hw
    cases d <;> cases hw
    decide
  | call f ps _ =>
    intro w hw
    cases hw
    have := List.any_eq_false.1 h.1 "not" (by decide)
    simpa using this
  | binary op a b iha _ =>
    obtain ⟨hleft, -, -, ha, -⟩ := h
    obtain ⟨t, ts, ht, -⟩ := a.tokens_eq_cons
    have := iha ha (Nat.lt_of_lt_of_le hs hleft.1)
    simpa [tokens, ht] using this
  | not p _ | like a b _ _ | among a ps _ _ => simp [strength] at hs
  | nil | cons => trivial

theorem FitsRight.least {k : Nat} {b : Phrase} (h : FitsRight k b) :
    k + 1 ≤ b.strength ∨ b.isNot = true := h

/-- An operator that a phrase may stand before ends it. -/
theorem FitsLeft.ends {k : Nat} {a : Phrase} {x : Suffix} {l : Lexeme} {ls : List Lexeme}
    (h : FitsLeft k a) (hx : suffix l = some (k, x)) : a.Ends (l :: ls) where
  noCall := by
    intro l' hl'
    cases hl'
    constructor <;> intro ht <;> rw [suffix, ht] at hx <;> cases hx
  stops := stops_of_suffix hx (Nat.lt_succ_of_le h.1)
  stopsNot ho := stops_of_suffix hx (Nat.lt_of_not_le fun hk => by simp [h.2 hk] at ho)

/-- What ends a phrase ends its right operand. -/
theorem FitsRight.ends {k : Nat} {b : Phrase} {rest : List Lexeme} (h : FitsRight k b)
    (hcall : ∀ l ∈ rest.head?, l.token ≠ .symbol "(" ∧ l.token ≠ .symbol ".")
    (hstops : Stops (k + 1) rest) (hnot : b.isOpen = true → Stops 4 rest) : b.Ends rest where
  noCall := hcall
  stops := by
    rcases h with h | h
    · exact hstops.mono (by omega)
    · cases b with
      | not b => exact hnot rfl
      | _ => cases h
  stopsNot := hnot

theorem stops_of_symbol {k : Nat} {l : Lexeme} {ls : List Lexeme}
    (h : l.token = .symbol "," ∨ l.token = .symbol ")") : Stops k (l :: ls) := by
  intro l' hl'
  cases hl'
  rw [suffixFrom, show suffix l = none by rcases h with h | h <;> rw [suffix, h] <;> rfl]
  rfl

/-- A comma and a closing parenthesis end every phrase. -/
theorem ends_of_symbol {p : Phrase} {l : Lexeme} {ls : List Lexeme}
    (h : l.token = .symbol "," ∨ l.token = .symbol ")") : p.Ends (l :: ls) where
  noCall l' hl' := by
    cases hl'
    rcases h with h | h <;> simp [h]
  stops := stops_of_symbol h
  stopsNot _ := stops_of_symbol h

theorem stops_nil {k : Nat} : Stops k [] := by
  intro l hl
  cases hl

theorem ends_nil {p : Phrase} : p.Ends [] where
  noCall l hl := by cases hl
  stops := stops_nil
  stopsNot _ := stops_nil

/-- A phrase that is an operand is read before any operator is awaited. -/
theorem reads_of_operand {p : Phrase}
    (h : ∀ (ls rest : List Lexeme) (c : Bool) (n fuel : Nat),
      ls.map Lexeme.token = p.tokens → p.Ends rest → 4 * ls.length ≤ fuel →
        operand fuel ⟨ls ++ rest, c, n⟩ = .ok (p.term n, ⟨rest, c, n + p.holes⟩)) :
    p.Reads := by
  intro ls rest c n least fuel hls _ hends hfuel
  obtain ⟨fuel, rfl⟩ := Nat.exists_eq_succ_of_ne_zero (Nat.ne_zero_of_lt hfuel)
  refine ⟨fuel, ?_, termFrom_of_operand (h ls rest c n fuel hls hends (by omega))⟩
  obtain ⟨t, ts, ht, -⟩ := p.tokens_eq_cons
  have : ls.length = (t :: ts).length := by rw [← ht, ← hls, List.length_map]
  simp only [List.length_cons] at this
  omega

theorem reads_not {p : Phrase} (h : (Phrase.not p).Grouped) (hp : p.Reads) :
    (Phrase.not p).Reads := by
  refine reads_of_operand fun ls rest c n fuel hls hends hfuel => ?_
  obtain ⟨l, ls, rfl, hl, hls⟩ := List.map_eq_cons_iff.1 hls
  obtain ⟨fuel, rfl⟩ : ∃ k, fuel = k + 1 := ⟨fuel - 1, by simp at hfuel; omega⟩
  have hstops : Stops 4 rest := hends.stopsNot rfl
  have hpends : p.Ends rest := h.1.ends hends.noCall hstops fun _ => hstops
  exact operand_not hl (hp.whole hls h.1.least hpends hstops (by simp at hfuel; omega))

theorem one_le_strength (p : Phrase) : 1 ≤ p.strength := by
  cases p with
  | binary op a b => cases op <;> simp [strength, Operator.strength]
  | _ => simp [strength]

/-- Before a comma or a closing parenthesis nothing more is awaited. -/
theorem Reads.before {p : Phrase} (h : p.Reads) {ls rest : List Lexeme} {r : Lexeme} {c : Bool}
    {n fuel : Nat} (hls : ls.map Lexeme.token = p.tokens)
    (hr : r.token = .symbol "," ∨ r.token = .symbol ")") (hfuel : 4 * ls.length < fuel) :
    termFrom 1 fuel ⟨ls ++ r :: rest, c, n⟩ = .ok (p.term n, ⟨r :: rest, c, n + p.holes⟩) :=
  h.whole hls (.inl p.one_le_strength) (ends_of_symbol hr) (stops_of_symbol hr) hfuel

theorem reads_paren {p : Phrase} (hp : p.Reads) : (Phrase.paren p).Reads := by
  refine reads_of_operand fun ls rest c n fuel hls hends hfuel => ?_
  obtain ⟨l, ls, rfl, hl, hls⟩ := List.map_eq_cons_iff.1 hls
  obtain ⟨lp, rs, rfl, hlp, hrs⟩ := List.map_eq_append_iff.1 hls
  obtain ⟨r, rfl, hr⟩ := List.map_eq_singleton_iff.1 hrs
  simp only [List.length_cons, List.length_append, List.length_nil] at hfuel
  obtain ⟨fuel, rfl⟩ : ∃ k, fuel = k + 1 := ⟨fuel - 1, by omega⟩
  simp only [List.cons_append, List.append_assoc, List.nil_append]
  exact operand_paren hl hr (hp.before hlp (.inr hr) (by omega))

/-- A phrase begins with another one: that one is read, and then the rest as a suffix of its
term. -/
theorem reads_of_suffix {p a : Phrase} {k : Nat} {ts : List Token} (ha : a.Reads)
    (hleft : FitsLeft k a) (hp : p.tokens = a.tokens ++ ts)
    (hk : ∀ {least}, least ≤ p.strength ∨ p.isNot = true → least ≤ k)
    (hfirst : ∀ {ls : List Lexeme}, ls.map Lexeme.token = ts →
      ∃ l ls' x, ls = l :: ls' ∧ suffix l = some (k, x))
    (hsuffix : ∀ (ls rest : List Lexeme) (c : Bool) (n least fuel : Nat),
      ls.map Lexeme.token = ts → least ≤ k → p.Ends rest → 4 * ls.length < fuel + 2 →
        suffixed least (a.term n) (fuel + 2) ⟨ls ++ rest, c, n + a.holes⟩ =
          suffixed least (p.term n) (fuel + 1) ⟨rest, c, n + p.holes⟩) :
    p.Reads := by
  intro ls rest c n least fuel hls hleast hends hfuel
  obtain ⟨la, ls, rfl, hla, hls⟩ := List.map_eq_append_iff.1 (hls.trans hp)
  obtain ⟨l, ls, x, rfl, hx⟩ := hfirst hls
  simp only [List.length_append, List.length_cons] at hfuel ⊢
  obtain ⟨fuel₁, hfuel₁, hreada⟩ := ha la (l :: (ls ++ rest)) c n least fuel hla
    (.inl (Nat.le_trans (hk hleast) hleft.1)) (hleft.ends hx) (by omega)
  -- Two of the fuel go to the first lexeme of the suffix.
  obtain ⟨fuel₂, rfl⟩ : ∃ k, fuel₁ = k + 2 := ⟨fuel₁ - 2, by omega⟩
  refine ⟨fuel₂ + 1, by omega, ?_⟩
  rw [List.append_assoc, List.cons_append, hreada]
  exact hsuffix (l :: ls) rest c n least fuel₂ hls (hk hleast) hends
    (by rw [List.length_cons]; omega)

theorem reads_binary {op : Operator} {a b : Phrase} (h : (Phrase.binary op a b).Grouped)
    (ha : a.Reads) (hb : b.Reads) : (Phrase.binary op a b).Reads := by
  obtain ⟨hleft, hright, his, -, hgb⟩ := h
  have hcons {ls : List Lexeme} (hls : ls.map Lexeme.token = op.tokens ++ b.tokens) :
      ∃ o os lb, ls = o :: os ++ lb ∧ (o :: os).map Lexeme.token = op.tokens ∧
        lb.map Lexeme.token = b.tokens := by
    obtain ⟨os, lb, rfl, hos, hlb⟩ := List.map_eq_append_iff.1 hls
    cases os with
    | nil => cases op <;> cases hos
    | cons o os => exact ⟨o, os, lb, rfl, hos, hlb⟩
  refine reads_of_suffix ha hleft (List.append_assoc ..) (by simp [strength, isNot])
    (fun hls => ?_) fun ls rest c n least fuel hls hleast hends hfuel => ?_
  · obtain ⟨o, os, lb, rfl, hos, -⟩ := hcons hls
    exact ⟨o, os ++ lb, _, rfl, suffix_operator hos⟩
  · obtain ⟨o, os, lb, rfl, hos, hlb⟩ := hcons hls
    have hbends : b.Ends rest := hright.ends hends.noCall hends.stops hends.stopsNot
    have hreadb := hb.whole hlb hright.least hbends hends.stops (c := c) (n := n + a.holes)
      (show 4 * lb.length < fuel by simp at hfuel; omega)
    have hno : op = .is → ∀ l ∈ (lb ++ rest).head?, isWord "not" l = false := by
      rintro rfl l hl
      have hstrength : 4 < b.strength := hright.resolve_right (by simp [his rfl])
      obtain ⟨t, ts, ht, -⟩ := b.tokens_eq_cons
      obtain ⟨l', lb, rfl, hl', -⟩ := List.map_eq_cons_iff.1 (hlb.trans ht)
      cases hl
      unfold isWord
      split
      · next w hw => exact hgb.first_ne_not hstrength w (by rw [ht, ← hl', hw]; rfl)
      · rfl
    rw [List.append_assoc, suffixed_binary hos hleast hno hreadb]
    simp only [term, holes, Nat.add_assoc]

theorem reads_like {a b : Phrase} (h : (Phrase.like a b).Grouped) (ha : a.Reads) (hb : b.Reads) :
    (Phrase.like a b).Reads := by
  obtain ⟨hleft, hright, -, -⟩ := h
  refine reads_of_suffix ha hleft rfl (by simp [strength, isNot])
    (fun hls => ?_) fun ls rest c n least fuel hls hleast hends hfuel => ?_
  · obtain ⟨o, lb, rfl, ho, -⟩ := List.map_eq_cons_iff.1 hls
    exact ⟨o, lb, .like, rfl, by rw [suffix, ho]; rfl⟩
  · obtain ⟨o, lb, rfl, ho, hlb⟩ := List.map_eq_cons_iff.1 hls
    have hbends : b.Ends rest := hright.ends hends.noCall hends.stops hends.stopsNot
    have hreadb := hb.whole hlb hright.least hbends hends.stops (c := c) (n := n + a.holes)
      (show 4 * lb.length < fuel by simp at hfuel; omega)
    rw [List.cons_append, suffixed_like hleast ho hreadb]
    simp only [term, holes, Nat.add_assoc]

theorem moreTerms_last {p : Phrase} (hp : p.Reads) {ls rest : List Lexeme} {r : Lexeme} {c : Bool}
    {n fuel : Nat} (hls : ls.map Lexeme.token = p.tokens) (hr : r.token = .symbol ")")
    (hfuel : 4 * ls.length < fuel) :
    moreTerms (fuel + 1) ⟨ls ++ r :: rest, c, n⟩ =
      .ok ([p.term n], ⟨rest, c, n + p.holes⟩) := by
  rw [moreTerms, bind_run (hp.before hls (.inr hr) hfuel), bind_run (symbol?_false (by simp [hr])),
    if_neg Bool.false_ne_true, bind_run (symbol_ok hr)]
  rfl

theorem moreTerms_cons {p : Phrase} (hp : p.Reads) {ls rest : List Lexeme} {r : Lexeme} {c : Bool}
    {n fuel : Nat} {ts : List NamedTerm} {s : State} (hls : ls.map Lexeme.token = p.tokens)
    (hr : r.token = .symbol ",") (hfuel : 4 * ls.length < fuel)
    (hts : moreTerms fuel ⟨rest, c, n + p.holes⟩ = .ok (ts, s)) :
    moreTerms (fuel + 1) ⟨ls ++ r :: rest, c, n⟩ = .ok (p.term n :: ts, s) := by
  rw [moreTerms, bind_run (hp.before hls (.inl hr) hfuel), bind_run (symbol?_true hr), if_pos rfl,
    bind_run hts]
  rfl

theorem moreTerms_read {ps : List Phrase} (hps : ∀ p ∈ ps, p.Reads) (hne : ps ≠ [])
    {ls rest : List Lexeme} {r : Lexeme} {c : Bool} {n fuel : Nat}
    (hls : ls.map Lexeme.token = separated (tokenLists ps)) (hr : r.token = .symbol ")")
    (hfuel : 4 * ls.length + 1 < fuel) :
    moreTerms fuel ⟨ls ++ r :: rest, c, n⟩ = .ok (terms ps n, ⟨rest, c, n + holesOfAll ps⟩) := by
  induction ps generalizing ls n fuel with
  | nil => exact absurd rfl hne
  | cons p ps ih =>
    obtain ⟨fuel, rfl⟩ : ∃ k, fuel = k + 1 := ⟨fuel - 1, by omega⟩
    have hp := hps p List.mem_cons_self
    cases ps with
    | nil => exact moreTerms_last hp hls hr (by omega)
    | cons q ps =>
      obtain ⟨lp, ls', rfl, hlp, hls'⟩ := List.map_eq_append_iff.1 hls
      obtain ⟨o, ls', rfl, ho, hls'⟩ := List.map_eq_cons_iff.1 hls'
      simp only [List.length_append, List.length_cons] at hfuel
      have hrest := ih (fun p hp => hps p (List.mem_cons_of_mem _ hp)) (List.cons_ne_nil q ps)
        (n := n + p.holes) hls' (show 4 * ls'.length + 1 < fuel by omega)
      rw [List.append_assoc, List.cons_append, moreTerms_cons hp hlp ho (by omega) hrest]
      simp only [terms, holesOfAll, Nat.add_assoc]

theorem first_of_separated {p : Phrase} {ps : List Phrase} {ls rest : List Lexeme}
    (hls : ls.map Lexeme.token = separated (tokenLists (p :: ps))) :
    ∀ l ∈ (ls ++ rest).head?, l.token ≠ .symbol ")" ∧ l.token ≠ .symbol "*" := by
  obtain ⟨t, ts, ht, hfirst⟩ := p.tokens_eq_cons
  obtain ⟨us, hus⟩ : ∃ us, separated (tokenLists (p :: ps)) = t :: us := by
    cases ps <;> simp [separated, tokenLists, ht]
  obtain ⟨l, ls, rfl, hl, -⟩ := List.map_eq_cons_iff.1 (hls.trans hus)
  intro l' hl'
  cases hl'
  rwa [hl]

/-- Phrases with commas between them are read up to the parenthesis after the last. -/
theorem closedList_read {ps : List Phrase} (hps : ∀ p ∈ ps, p.Reads) {ls rest : List Lexeme}
    {r : Lexeme} {c : Bool} {n fuel : Nat}
    (hls : ls.map Lexeme.token = separated (tokenLists ps)) (hr : r.token = .symbol ")")
    (hfuel : 4 * ls.length + 2 < fuel) :
    closedList fuel ⟨ls ++ r :: rest, c, n⟩ = .ok (terms ps n, ⟨rest, c, n + holesOfAll ps⟩) := by
  obtain ⟨fuel, rfl⟩ : ∃ k, fuel = k + 1 := ⟨fuel - 1, by omega⟩
  cases ps with
  | nil =>
    obtain rfl : ls = [] := List.map_eq_nil_iff.1 hls
    rw [closedList, List.nil_append, bind_run (symbol?_true hr), if_pos rfl]
    rfl
  | cons p ps =>
    have hfirst : ∀ l ∈ (ls ++ r :: rest).head?, l.token ≠ .symbol ")" :=
      fun l hl => (first_of_separated hls l hl).1
    rw [closedList, bind_run (symbol?_false hfirst), if_neg Bool.false_ne_true]
    exact moreTerms_read hps (List.cons_ne_nil p ps) hls hr (by omega)

theorem reads_among {a : Phrase} {ps : List Phrase} (h : (Phrase.among a ps).Grouped)
    (ha : a.Reads) (hps : ∀ p ∈ ps, p.Reads) : (Phrase.among a ps).Reads := by
  refine reads_of_suffix ha h.1 (List.append_assoc ..) (by simp [strength, isNot])
    (fun hls => ?_) fun ls rest c n least fuel hls hleast hends hfuel => ?_
  · obtain ⟨o, ls, rfl, ho, -⟩ := List.map_eq_cons_iff.1 hls
    exact ⟨o, ls, .among, rfl, by rw [suffix, ho]; rfl⟩
  · obtain ⟨o, ls, rfl, ho, hls⟩ := List.map_eq_cons_iff.1 hls
    obtain ⟨p, ls, rfl, hp, hls⟩ := List.map_eq_cons_iff.1 hls
    obtain ⟨lps, rs, rfl, hlps, hrs⟩ := List.map_eq_append_iff.1 hls
    obtain ⟨r, rfl, hr⟩ := List.map_eq_singleton_iff.1 hrs
    simp only [List.length_append, List.length_cons, List.length_nil] at hfuel
    have hreadps : closedList fuel ⟨lps ++ r :: rest, c, n + a.holes⟩ =
        .ok (terms ps (n + a.holes), ⟨rest, c, n + a.holes + holesOfAll ps⟩) :=
      closedList_read hps hlps hr (by omega)
    simp only [List.append_assoc, List.cons_append, List.nil_append]
    rw [suffixed_among hleast ho hp hreadps]
    simp only [term, holes, Nat.add_assoc]

theorem reads_call {function : String} {ps : List Phrase} (h : (Phrase.call function ps).Grouped)
    (hps : ∀ p ∈ ps, p.Reads) : (Phrase.call function ps).Reads := by
  refine reads_of_operand fun ls rest c n fuel hls hends hfuel => ?_
  obtain ⟨lr, rs, rfl, hlr, hrs⟩ := List.map_eq_append_iff.1 hls
  obtain ⟨r, rfl, hr⟩ := List.map_eq_singleton_iff.1 hrs
  obtain ⟨l, lr, rfl, hl, hlr⟩ := List.map_eq_cons_iff.1 hlr
  obtain ⟨p, lps, rfl, hp, hlps⟩ := List.map_eq_cons_iff.1 hlr
  simp only [List.length_append, List.length_cons, List.length_nil] at hfuel
  obtain ⟨fuel, rfl⟩ : ∃ k, fuel = k + 2 := ⟨fuel - 2, by omega⟩
  have hreadps : closedList fuel ⟨lps ++ r :: rest, c, n⟩ =
      .ok (terms ps n, ⟨rest, c, n + holesOfAll ps⟩) :=
    closedList_read hps hlps hr (by omega)
  have hstar : ∀ l ∈ (lps ++ r :: rest).head?, l.token ≠ .symbol "*" := by
    cases ps with
    | nil =>
      obtain rfl : lps = [] := List.map_eq_nil_iff.1 hlps
      simp [hr]
    | cons q ps => exact fun l hl => (first_of_separated hlps l hl).2
  simp only [List.append_assoc, List.cons_append, List.nil_append]
  rw [operand_call hl h.1 hp, Grammar.call, bind_run (symbol?_false hstar),
    if_neg Bool.false_ne_true, bind_run hreadps]
  rfl

/-- A phrase of one token is read where the token is an operand. -/
theorem reads_of_token {p : Phrase} {t : Token} (hp : p.tokens = [t])
    (h : ∀ (l : Lexeme) (rest : List Lexeme) (c : Bool) (n fuel : Nat), l.token = t →
      p.Ends rest →
        operand (fuel + 1) ⟨l :: rest, c, n⟩ = .ok (p.term n, ⟨rest, c, n + p.holes⟩)) :
    p.Reads := by
  refine reads_of_operand fun ls rest c n fuel hls hends hfuel => ?_
  obtain ⟨l, rfl, hl⟩ := List.map_eq_singleton_iff.1 (hls.trans hp)
  obtain ⟨fuel, rfl⟩ : ∃ k, fuel = k + 1 := ⟨fuel - 1, by simp at hfuel; omega⟩
  exact h l rest c n fuel hl hends

theorem reads_literal (d : Datum) : (literal d).Reads :=
  reads_of_token rfl fun _ _ _ _ _ hl _ => operand_literal hl

theorem reads_hole : hole.Reads := reads_of_token rfl fun _ _ _ _ _ hl _ => operand_hole hl

theorem reads_name (s : String) : (name s).Reads :=
  reads_of_token rfl fun _ _ _ _ _ hl hends =>
    operand_name hl (fun l hl => (hends.noCall l hl).1) fun l hl => (hends.noCall l hl).2

theorem GroupedAll.of_mem {ps : List Phrase} (h : GroupedAll ps) : ∀ p ∈ ps, p.Grouped := by
  induction ps with
  | nil => nofun
  | cons p ps ih =>
    intro q hq
    rcases List.mem_cons.mp hq with rfl | hq
    · exact h.1
    · exact ih h.2 q hq

theorem Grouped.reads {p : Phrase} (h : p.Grouped) : p.Reads := by
  induction p using Phrase.rec (motive_2 := fun ps => ∀ p ∈ ps, p.Grouped → p.Reads) with
  | name s => exact reads_name s
  | hole => exact reads_hole
  | literal d => exact reads_literal d
  | not p ih => exact reads_not h (ih h.2)
  | paren p ih => exact reads_paren (ih h)
  | binary op a b iha ihb => exact reads_binary h (iha h.2.2.2.1) (ihb h.2.2.2.2)
  | like a b iha ihb => exact reads_like h (iha h.2.2.1) (ihb h.2.2.2)
  | among a ps iha ihps => exact reads_among h (iha h.2.1) fun p hp => ihps p hp (h.2.2.of_mem p hp)
  | call f ps ihps => exact reads_call h fun p hp => ihps p hp (h.2.of_mem p hp)
  | nil => rename_i hp _; cases hp
  | cons p ps ihp ihps =>
    rename_i q hq hgrouped
    rcases List.mem_cons.mp hq with rfl | hq
    · exact ihp hgrouped
    · exact ihps q hq hgrouped

/-- Read as a whole, a grouped phrase is its term. -/
theorem Grouped.term_read {p : Phrase} (h : p.Grouped) {ls : List Lexeme} {c : Bool}
    (hls : ls.map Lexeme.token = p.tokens) :
    Grammar.term ⟨ls, c, 0⟩ = .ok (p.term 0, ⟨[], c, p.holes⟩) := by
  have hread := h.reads.whole hls (.inl p.one_le_strength) ends_nil stops_nil (c := c) (n := 0)
    (show 4 * ls.length < 4 * (ls.length + 1) by omega)
  rw [List.append_nil, Nat.zero_add] at hread
  exact hread

end Phrase

end RowLedger
