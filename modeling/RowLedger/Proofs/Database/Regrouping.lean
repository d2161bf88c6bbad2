import RowLedger.Proofs.Database.Precedence

/-!
How a phrase is read that lacks parentheses around negations: a negation takes in the operators
after it that bind more strongly. The phrase read so is written alike.
-/

namespace RowLedger

namespace Phrase

/-- Puts a phrase into a place on the left of an operator; a negation takes the operator in. -/
def taken (place : Phrase → Phrase) : Phrase → Phrase
  | not p => not (place p)
  | p => place p

mutual

def regrouped : Phrase → Phrase
  | name s => name s
  | hole => hole
  | literal d => literal d
  | not p => not (regrouped p)
  | paren p => paren (regrouped p)
  | binary op a b =>
    if 4 ≤ op.strength then taken (fun a => binary op a (regrouped b)) (regrouped a)
    else binary op (regrouped a) (regrouped b)
  | like a b => taken (fun a => like a (regrouped b)) (regrouped a)
  | among a ps => taken (fun a => among a (regroupedAll ps)) (regrouped a)
  | call function ps => call function (regroupedAll ps)

def regroupedAll : List Phrase → List Phrase
  | [] => []
  | p :: ps => regrouped p :: regroupedAll ps

end

mutual

/-- No negation without parentheses stands on the left of an operator that binds more strongly. -/
def Shielded : Phrase → Prop
  | name _ | hole | literal _ => True
  | not p | paren p => Shielded p
  | binary op a b => (4 ≤ op.strength → a.isNot = false) ∧ Shielded a ∧ Shielded b
  | like a b => a.isNot = false ∧ Shielded a ∧ Shielded b
  | among a ps => a.isNot = false ∧ Shielded a ∧ ShieldedAll ps
  | call _ ps => ShieldedAll ps

def ShieldedAll : List Phrase → Prop
  | [] => True
  | p :: ps => Shielded p ∧ ShieldedAll ps

end

theorem taken_of_isNot {place : Phrase → Phrase} {p : Phrase} (h : p.isNot = false) :
    taken place p = place p := by
  cases p <;> first | rfl | cases h

theorem tokens_taken {place : Phrase → Phrase} {ts : List Token}
    (h : ∀ p, (place p).tokens = p.tokens ++ ts) (p : Phrase) :
    (taken place p).tokens = p.tokens ++ ts := by
  cases p with
  | not p => simp [taken, tokens, h]
  | _ => exact h _

theorem tokens_regrouped (p : Phrase) : p.regrouped.tokens = p.tokens := by
  induction p using Phrase.rec
    (motive_2 := fun ps => tokenLists (regroupedAll ps) = tokenLists ps) with
  | name s | hole | literal d | nil => rfl
  | not p ih | paren p ih => simp only [regrouped, tokens, ih]
  | binary op a b iha ihb =>
    have hplace (a : Phrase) :
        (binary op a b.regrouped).tokens = a.tokens ++ (op.tokens ++ b.tokens) := by
      simp [tokens, ihb]
    rw [regrouped]
    split
    · rw [tokens_taken hplace, iha, tokens, List.append_assoc]
    · rw [hplace, iha, tokens, List.append_assoc]
  | like a b iha ihb =>
    rw [regrouped, tokens_taken fun a => by rw [tokens, ihb], iha]
    rfl
  | among a ps iha ihps =>
    have hplace (a : Phrase) : (among a (regroupedAll ps)).tokens =
        a.tokens ++ (.word "in" :: .symbol "(" :: separated (tokenLists ps) ++ [.symbol ")"]) := by
      simp [tokens, ihps]
    rw [regrouped, tokens_taken hplace, iha]
    simp [tokens]
  | call f ps ih => simp only [regrouped, tokens, ih]
  | cons p ps ihp ihps => simp only [regroupedAll, tokenLists, ihp, ihps]

theorem holes_taken {place : Phrase → Phrase} {k : Nat}
    (h : ∀ p, (place p).holes = p.holes + k) (p : Phrase) :
    (taken place p).holes = p.holes + k := by
  cases p with
  | not p => simp [taken, holes, h]
  | _ => exact h _

theorem holes_regrouped (p : Phrase) : p.regrouped.holes = p.holes := by
  induction p using Phrase.rec
    (motive_2 := fun ps => holesOfAll (regroupedAll ps) = holesOfAll ps) with
  | name s | hole | literal d | nil => rfl
  | not p ih | paren p ih => simp only [regrouped, holes, ih]
  | binary op a b iha ihb =>
    rw [regrouped]
    split
    · rw [holes_taken fun a => by rw [holes, ihb], iha]
      rfl
    · simp only [holes, iha, ihb]
  | like a b iha ihb =>
    rw [regrouped, holes_taken fun a => by rw [holes, ihb], iha]
    rfl
  | among a ps iha ihps =>
    rw [regrouped, holes_taken fun a => by rw [holes, ihps], iha]
    rfl
  | call f ps ih => simp only [regrouped, holes, ih]
  | cons p ps ihp ihps => simp only [regroupedAll, holesOfAll, ihp, ihps]

theorem Shielded.regrouped {p : Phrase} (h : p.Shielded) : p.regrouped = p := by
  induction p using Phrase.rec
    (motive_2 := fun ps => ShieldedAll ps → regroupedAll ps = ps) with
  | name s | hole | literal d => rfl
  | not p ih | paren p ih => rw [Phrase.regrouped, ih h]
  | binary op a b iha ihb =>
    rw [Phrase.regrouped, iha h.2.1, ihb h.2.2]
    split
    · next hop => exact taken_of_isNot (h.1 hop)
    · rfl
  | like a b iha ihb => rw [Phrase.regrouped, iha h.2.1, ihb h.2.2, taken_of_isNot h.1]
  | among a ps iha ihps => rw [Phrase.regrouped, iha h.2.1, ihps h.2.2, taken_of_isNot h.1]
  | call f ps ih => rw [Phrase.regrouped, ih h]
  | nil => rfl
  | cons p ps ihp ihps =>
    rename_i h
    rw [regroupedAll, ihp h.1, ihps h.2]

theorem isNot_of_term_taken {place : Phrase → Phrase} {p : Phrase} {n : Nat} {t : NamedTerm}
    (h : (taken place p).term n = t) (ht : ∀ u, t ≠ .not u) : p.isNot = false := by
  cases p with
  | not p => exact absurd h.symm (ht _)
  | _ => rfl

theorem Shielded.isNot_eq {p : Phrase} (h : p.Shielded) : p.regrouped.isNot = p.isNot := by
  rw [h.regrouped]

/-- Another term is read where a negation takes an operator in. -/
theorem shielded_of_term {p : Phrase} {n : Nat} (h : p.regrouped.term n = p.term n) :
    p.Shielded := by
  induction p using Phrase.rec
    (motive_2 := fun ps => ∀ n, terms (regroupedAll ps) n = terms ps n → ShieldedAll ps)
    generalizing n with
  | name s | hole | literal d => trivial
  | not p ih => exact ih (Term.not.inj h)
  | paren p ih => exact ih h
  | binary op a b iha ihb =>
    by_cases hop : 4 ≤ op.strength
    · rw [regrouped, if_pos hop] at h
      have hnot := isNot_of_term_taken h nofun
      rw [taken_of_isNot hnot] at h
      obtain ⟨-, ha, hb⟩ := Term.binary.inj h
      rw [holes_regrouped] at hb
      exact ⟨fun _ => (iha ha).isNot_eq ▸ hnot, iha ha, ihb hb⟩
    · rw [regrouped, if_neg hop] at h
      obtain ⟨-, ha, hb⟩ := Term.binary.inj h
      rw [holes_regrouped] at hb
      exact ⟨fun h => absurd h hop, iha ha, ihb hb⟩
  | like a b iha ihb =>
    have hnot := isNot_of_term_taken h nofun
    rw [regrouped, taken_of_isNot hnot] at h
    obtain ⟨ha, hb⟩ := Term.like.inj h
    rw [holes_regrouped] at hb
    exact ⟨(iha ha).isNot_eq ▸ hnot, iha ha, ihb hb⟩
  | among a ps iha ihps =>
    have hnot := isNot_of_term_taken h nofun
    rw [regrouped, taken_of_isNot hnot] at h
    obtain ⟨ha, hps⟩ := Term.among.inj h
    rw [holes_regrouped] at hps
    exact ⟨(iha ha).isNot_eq ▸ hnot, iha ha, ihps _ hps⟩
  | call f ps ih => exact ih n (Term.call.inj h).2
  | nil => trivial
  | cons p ps ihp ihps =>
    rename_i n h
    simp only [regroupedAll, terms, List.cons.injEq, holes_regrouped] at h
    exact ⟨ihp h.1, ihps _ h.2⟩

theorem term_regrouped_iff {p : Phrase} {n : Nat} :
    p.regrouped.term n = p.term n ↔ p.Shielded :=
  ⟨shielded_of_term, fun h => by rw [h.regrouped]⟩

/-- Does no operator stand outside of parentheses, and no negation? -/
def isClosed (p : Phrase) : Bool := p.strength == 10

def isOperand (p : Phrase) : Bool := p.isClosed || p.isNot

/-- A phrase with parentheses around every operator; a negation may stand without them where an
operand is awaited. -/
inductive Enclosed : Phrase → Prop
  | name (s : String) : Enclosed (name s)
  | hole : Enclosed hole
  | literal (d : Datum) : Enclosed (literal d)
  | not {p : Phrase} : Enclosed p → Enclosed (not (paren p))
  | paren {p : Phrase} : Enclosed p → Enclosed (paren p)
  | call {function : String} {ps : List Phrase} : Grammar.IsFree function →
      (∀ p ∈ ps, Enclosed p) → Enclosed (call function ps)
  | binary {op : Operator} {a b : Phrase} : 4 ≤ op.strength → a.isOperand = true →
      b.isOperand = true → (op = .is → b.isClosed = true) → Enclosed a → Enclosed b →
        Enclosed (binary op a b)
  /-- Two operators one after the other, of which the first binds at least as strongly. -/
  | chain {op op' : Operator} {a b c : Phrase} : 4 ≤ op.strength → op.strength ≤ op'.strength →
      a.isClosed = true → b.isClosed = true → c.isClosed = true → Enclosed a → Enclosed b →
        Enclosed c → Enclosed (binary op (binary op' a b) c)
  /-- Connectives stand between comparisons. -/
  | connective {op : Operator} {a b : Phrase} : op.strength < 3 → 3 ≤ a.strength →
      3 ≤ b.strength → Enclosed a → Enclosed b → Enclosed (binary op a b)
  | like {a b : Phrase} : a.isOperand = true → b.isOperand = true → Enclosed a → Enclosed b →
      Enclosed (like a b)
  | among {a : Phrase} {ps : List Phrase} : a.isOperand = true → Enclosed a →
      (∀ p ∈ ps, Enclosed p) → Enclosed (among a ps)

theorem strength_of_isClosed {p : Phrase} (h : p.isClosed = true) : p.strength = 10 :=
  beq_iff_eq.1 h

theorem isNot_of_isClosed {p : Phrase} (h : p.isClosed = true) : p.isNot = false := by
  cases p <;> first | rfl | cases h

theorem isOpen_of_isClosed {p : Phrase} (h : p.isClosed = true) : p.isOpen = false := by
  cases p with
  | not => cases h
  | binary op => cases op <;> cases h
  | like => cases h
  | _ => rfl

theorem isClosed_regrouped {p : Phrase} (h : p.isClosed = true) : p.regrouped.isClosed = true := by
  cases p with
  | binary op => cases op <;> cases h
  | not | like | among => cases h
  | _ => rfl

theorem fitsLeft_of_isClosed {k : Nat} {p : Phrase} (h : p.isClosed = true) (hk : k ≤ 10) :
    FitsLeft k p :=
  ⟨by rw [strength_of_isClosed h]; exact hk, fun _ => isOpen_of_isClosed h⟩

theorem fitsRight_regrouped {k : Nat} {p : Phrase} (h : p.isOperand = true) (hk : k < 10) :
    FitsRight k p.regrouped := by
  rcases Bool.or_eq_true_iff.1 h with h | h
  · exact .inl (by rw [strength_of_isClosed (isClosed_regrouped h)]; exact hk)
  · cases p with
    | not p => exact .inr rfl
    | _ => cases h

theorem strength_taken {place : Phrase → Phrase} {p : Phrase} (h : 3 ≤ (place p).strength) :
    3 ≤ (taken place p).strength := by
  cases p with
  | not p => exact Nat.le_refl 3
  | _ => exact h

theorem strength_regrouped {p : Phrase} (h : 3 ≤ p.strength) : 3 ≤ p.regrouped.strength := by
  cases p with
  | binary op a b =>
    rw [regrouped]
    split
    · exact strength_taken h
    · exact h
  | like a b | among a ps => exact strength_taken (show 3 ≤ 4 by decide)
  | _ => exact h

theorem Enclosed.eq_not {p : Phrase} (h : Enclosed p) (hn : p.isNot = true) :
    ∃ q, p = .not (.paren q) := by
  cases h with
  | not => exact ⟨_, rfl⟩
  | _ => cases hn

/-- An operator that takes a closed phrase may be taken in by a negation. -/
theorem grouped_taken {place : Phrase → Phrase} {p : Phrase} (h : Enclosed p)
    (hp : p.isOperand = true) (hgrouped : p.regrouped.Grouped)
    (hplace : ∀ q : Phrase, q.isClosed = true → q.Grouped →
      3 < (place q).strength ∧ (place q).Grouped) :
    (taken place p.regrouped).Grouped := by
  rcases Bool.or_eq_true_iff.1 hp with hc | hn
  · rw [taken_of_isNot (isNot_of_isClosed (isClosed_regrouped hc))]
    exact (hplace _ (isClosed_regrouped hc) hgrouped).2
  · obtain ⟨q, rfl⟩ := h.eq_not hn
    obtain ⟨hstrength, hg⟩ := hplace (paren q.regrouped) rfl hgrouped.2
    exact ⟨.inl hstrength, hg⟩

theorem groupedAll_regroupedAll {ps : List Phrase} (h : ∀ p ∈ ps, p.regrouped.Grouped) :
    GroupedAll (regroupedAll ps) := by
  induction ps with
  | nil => trivial
  | cons p ps ih =>
    exact ⟨h p List.mem_cons_self, ih fun q hq => h q (List.mem_cons_of_mem p hq)⟩

theorem Enclosed.grouped {p : Phrase} (h : Enclosed p) : p.regrouped.Grouped := by
  induction h with
  | name | hole | literal => trivial
  | not _ ih => exact ⟨.inl (show 3 < 10 by decide), ih⟩
  | paren _ ih => exact ih
  | call hf _ ih => exact ⟨hf, groupedAll_regroupedAll ih⟩
  | @binary op a b hop ha hb his hea _ iha ihb =>
    rw [regrouped, if_pos hop]
    refine grouped_taken hea ha iha fun q hq hg => ⟨hop, ?_⟩
    exact ⟨fitsLeft_of_isClosed hq (Nat.le_of_lt op.strength_lt),
      fitsRight_regrouped hb op.strength_lt,
      fun h => isNot_of_isClosed (isClosed_regrouped (his h)), hg, ihb⟩
  | @chain op op' a b c hop hle ha hb hc _ _ _ iha ihb ihc =>
    have hoperand {p : Phrase} (h : p.isClosed = true) : p.isOperand = true := by
      rw [isOperand, h, Bool.true_or]
    have hnot {p : Phrase} (h : p.isClosed = true) : p.regrouped.isNot = false :=
      isNot_of_isClosed (isClosed_regrouped h)
    have hinner : (Phrase.binary op' a b).regrouped = .binary op' a.regrouped b.regrouped := by
      rw [regrouped, if_pos (Nat.le_trans hop hle), taken_of_isNot (hnot ha)]
    have hopen : (Phrase.binary op' a.regrouped b.regrouped).isOpen = false :=
      isOpen_of_isClosed (p := b.regrouped) (isClosed_regrouped hb)
    rw [regrouped, if_pos hop, hinner]
    refine ⟨⟨hle, fun _ => hopen⟩,
      fitsRight_regrouped (hoperand hc) op.strength_lt, fun _ => hnot hc, ?_, ihc⟩
    exact ⟨fitsLeft_of_isClosed (isClosed_regrouped ha) (Nat.le_of_lt op'.strength_lt),
      fitsRight_regrouped (hoperand hb) op'.strength_lt, fun _ => hnot hb, iha, ihb⟩
  | @connective op a b hop ha hb _ _ iha ihb =>
    have ha := strength_regrouped ha
    have hb := strength_regrouped hb
    rw [regrouped, if_neg (by omega)]
    refine ⟨⟨by omega, fun h => by omega⟩, .inl (by omega), fun h => ?_, iha, ihb⟩
    rw [h] at hop
    exact absurd hop (by decide)
  | @like a b ha hb hea _ iha ihb =>
    rw [regrouped]
    refine grouped_taken hea ha iha fun q hq hg => ⟨show 3 < 4 by decide, ?_⟩
    exact ⟨fitsLeft_of_isClosed hq (by decide), fitsRight_regrouped hb (by decide), hg, ihb⟩
  | @among a ps ha hea _ iha ihps =>
    rw [regrouped]
    refine grouped_taken hea ha iha fun q hq hg => ⟨show 3 < 4 by decide, ?_⟩
    exact ⟨fitsLeft_of_isClosed hq (by decide), hg, groupedAll_regroupedAll ihps⟩

/-- What is read of an enclosed phrase: the term meant exactly when negations are shielded. -/
theorem Enclosed.term_read {p : Phrase} (h : Enclosed p) {ls : List Lexeme} {c : Bool}
    (hls : ls.map Lexeme.token = p.tokens) :
    Grammar.term ⟨ls, c, 0⟩ = .ok (p.regrouped.term 0, ⟨[], c, p.holes⟩) := by
  have hread := h.grouped.term_read (c := c) (hls.trans p.tokens_regrouped.symm)
  rw [holes_regrouped] at hread
  exact hread

end Phrase

end RowLedger
