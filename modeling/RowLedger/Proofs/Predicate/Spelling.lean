import RowLedger.Proofs.Predicate.Phrase

/-! The text of a predicate has the tokens of its phrase. -/

namespace RowLedger

namespace Lexeme

/-- The tokens of characters that end where the last token does. -/
def Lexes (cs : List Char) (ts : List Token) : Prop :=
  ∀ rest, tokensOf (cs ++ rest) = ts ++ tokensOf rest

/-- Do the characters at the front belong to no token before them? -/
def breaksAt (cs : List Char) : Bool := cs.head?.any fun c => [' ', '(', ')', ',', '+'].contains c

def isWordText (cs : List Char) : Bool := cs.head?.any startsWord && cs.all inWord

theorem breaks_of_breaksAt {cs rest : List Char} (h : breaksAt cs = true) :
    Breaks (cs ++ rest) := by
  cases cs with
  | nil => cases h
  | cons c cs => exact breaks_cons (by simpa [breaksAt] using h)

theorem lexes_nil : Lexes [] [] := fun _ => rfl

theorem Lexes.afterSpace {cs : List Char} {ts : List Token} (h : Lexes cs ts) :
    Lexes (' ' :: cs) ts :=
  fun rest => (tokensOf_space _).trans (h rest)

theorem Lexes.afterOpen {cs : List Char} {ts : List Token} (h : Lexes cs ts) :
    Lexes ('(' :: cs) (.symbol "(" :: ts) :=
  fun rest => (tokensOf_openParen _).trans (congrArg _ (h rest))

theorem Lexes.afterClose {cs : List Char} {ts : List Token} (h : Lexes cs ts) :
    Lexes (')' :: cs) (.symbol ")" :: ts) :=
  fun rest => (tokensOf_closeParen _).trans (congrArg _ (h rest))

theorem Lexes.afterComma {cs : List Char} {ts : List Token} (h : Lexes cs ts) :
    Lexes (',' :: cs) (.symbol "," :: ts) :=
  fun rest => (tokensOf_comma _).trans (congrArg _ (h rest))

/-- A word that is followed by a space or a parenthesis. -/
theorem Lexes.afterWord {w cs : List Char} {ts : List Token} (h : Lexes cs ts)
    (hw : isWordText w = true) (hcs : breaksAt cs = true) :
    Lexes (w ++ cs) (.word (String.ofList w) :: ts) := by
  intro rest
  obtain ⟨hstart, hall⟩ := Bool.and_eq_true_iff.1 hw
  cases w with
  | nil => cases hstart
  | cons c w =>
    rw [List.append_assoc, List.cons_append,
      tokensOf_word hstart (Bool.and_eq_true_iff.1 hall).2 (breaks_of_breaksAt hcs), h]
    rfl

/-- A sign of one character before a space. -/
theorem Lexes.afterSign {c : Char} {cs : List Char} {ts : List Token} (h : Lexes (' ' :: cs) ts)
    (hsize : ∀ cs, sizeAfter c (' ' :: cs) = 0) (hgap : isGap [c] = false) :
    Lexes (c :: ' ' :: cs) (classify [c] :: ts) :=
  fun rest => (tokensOf_single (hsize _) hgap).trans (congrArg _ (h rest))

/-- A sign of two characters. -/
theorem Lexes.afterPair {c d : Char} {cs : List Char} {ts : List Token} (h : Lexes cs ts)
    (hsize : ∀ cs, sizeAfter c (d :: cs) = 1) (hgap : isGap [c, d] = false) :
    Lexes (c :: d :: cs) (classify [c, d] :: ts) :=
  fun rest => (tokensOf_pair (hsize _) hgap).trans (congrArg _ (h rest))

theorem lexes_space : Lexes [' '] [] := lexes_nil.afterSpace

theorem lexes_operator {op : BinaryOp} {w : String} (h : op.token? = some w) :
    Lexes (" " ++ w ++ " ").toList op.operator.tokens := by
  have hsign {c : Char} (hsize : ∀ cs, sizeAfter c (' ' :: cs) = 0) (hgap : isGap [c] = false) :
      Lexes [' ', c, ' '] [classify [c]] := (lexes_space.afterSign hsize hgap).afterSpace
  have hpair {c d : Char} (hsize : ∀ cs, sizeAfter c (d :: cs) = 1)
      (hgap : isGap [c, d] = false) : Lexes [' ', c, d, ' '] [classify [c, d]] :=
    (lexes_space.afterPair hsize hgap).afterSpace
  have hword {v : List Char} (hv : isWordText v = true) :
      Lexes (' ' :: (v ++ [' '])) [.word (String.ofList v)] :=
    (lexes_space.afterWord hv rfl).afterSpace
  cases op <;> cases h
  case eq => exact hsign (c := '=') (fun _ => rfl) rfl
  case ne => exact hpair (c := '!') (d := '=') (fun _ => rfl) rfl
  case lt => exact hsign (c := '<') (fun _ => rfl) rfl
  case le => exact hpair (c := '<') (d := '=') (fun _ => rfl) rfl
  case gt => exact hsign (c := '>') (fun _ => rfl) rfl
  case ge => exact hpair (c := '>') (d := '=') (fun _ => rfl) rfl
  case bitAnd => exact hsign (c := '&') (fun _ => rfl) rfl
  case bitOr => exact hsign (c := '|') (fun _ => rfl) rfl
  case and => exact hword (v := ['a', 'n', 'd']) (by decide)
  case or => exact hword (v := ['o', 'r']) (by decide)

theorem lexes_nullOperator {op : BinaryOp} {w : String} (h : op.nullKeyword? = some w) :
    Lexes (" " ++ w ++ " ").toList op.nullOperator.tokens := by
  have his : isWordText ['i', 's'] = true := by decide
  have hnot : isWordText ['n', 'o', 't'] = true := by decide
  have hlt : Lexes [' ', '<', ' '] [.symbol "<"] :=
    (lexes_space.afterSign (fun _ => rfl) rfl).afterSpace
  cases op <;> cases h
  case eq => exact (lexes_space.afterWord his rfl).afterSpace
  case ne => exact (((lexes_space.afterWord hnot rfl).afterSpace).afterWord his rfl).afterSpace
  case lt | le | gt | ge => exact hlt

end Lexeme

namespace Layout

open Lexeme

/-- The text of the layout has these tokens, whatever comes after a break. -/
def Writes (l : Layout) (ts : List Token) : Prop :=
  ∀ rest, Breaks rest → tokensOf (l.text.toList ++ rest) = ts ++ tokensOf rest

@[simp] theorem toList_text_cons (s : Spot) (l : Layout) :
    (text (s :: l)).toList = s.text.toList ++ l.text.toList := by
  simp [text]

@[simp] theorem toList_text_append (l m : Layout) :
    (text (l ++ m)).toList = l.text.toList ++ m.text.toList := by
  simp [text]

theorem writes_word {w : String} {ts : List Token} (hw : Lexes w.toList ts) :
    Writes [.word w] ts := by
  intro rest _
  simpa [text, Spot.text] using hw rest

theorem Writes.afterWord {w : String} {l : Layout} {ts us : List Token} (hl : Writes l us)
    (hw : Lexes w.toList ts) : Writes (.word w :: l) (ts ++ us) := by
  intro rest hrest
  rw [toList_text_cons, List.append_assoc, List.append_assoc, ← hl rest hrest]
  exact hw _

/-- A layout is followed by a word that breaks. -/
theorem Writes.beforeWord {w : String} {l m : Layout} {ts us : List Token} (hl : Writes l ts)
    (hw : breaksAt w.toList = true) (hm : Writes (.word w :: m) us) :
    Writes (l ++ .word w :: m) (ts ++ us) := by
  intro rest hrest
  have hbreaks : Breaks ((text (.word w :: m)).toList ++ rest) := by
    rw [toList_text_cons, List.append_assoc]
    exact breaks_of_breaksAt hw
  rw [toList_text_append, List.append_assoc, hl _ hbreaks, hm rest hrest, List.append_assoc]

theorem writes_name (s : String) : Writes [.name s] [.name s true] := by
  intro rest hrest
  have := tokensOf_name s hrest
  simpa [text, Spot.text, Dialect.quote, Text.delimited] using this

theorem writes_constant (v : Value) : Writes [.constant v] [.parameter none] := by
  intro rest hrest
  have := tokensOf_hole hrest
  simpa [text, Spot.text, Dialect.placeholder] using this

theorem tokens_numeral (n : Nat) : (Phrase.numeral n).tokens = [.number (.ofInt n)] := by
  rw [Phrase.numeral, Phrase.tokens]
  unfold Datum.ofInt
  split <;> rfl

theorem writes_numeral (n : Nat) :
    Writes [.word (Text.showInt n)] (Phrase.numeral n).tokens := by
  intro rest hrest
  have := tokensOf_numeral n hrest
  simpa [tokens_numeral, text, Spot.text, Text.toList_showInt_natCast] using this

theorem writes_text {w s : String} (hw : w.toList = Text.delimitedChars '\'' '\'' s) :
    Writes [.word w] (Phrase.text s).tokens := by
  intro rest hrest
  have := tokensOf_text s hrest
  simpa [text, Spot.text, hw, Phrase.text, Phrase.tokens, Phrase.literalToken] using this

theorem Writes.closed {l : Layout} {ts : List Token} {w : String} {us : List Token}
    (hl : Writes l ts) (hbreaks : breaksAt w.toList = true) (hw : Lexes w.toList us) :
    Writes (l ++ [.word w]) (ts ++ us) :=
  hl.beforeWord hbreaks (writes_word hw)

theorem lexes_open : Lexes "(".toList [.symbol "("] := lexes_nil.afterOpen

theorem lexes_close : Lexes ")".toList [.symbol ")"] := lexes_nil.afterClose

theorem lexes_comma : Lexes ",".toList [.symbol ","] := lexes_nil.afterComma

theorem Writes.infixed {a b : Layout} {w : String} {ts us vs : List Token} (ha : Writes a ts)
    (hb : Writes b vs) (hbreaks : breaksAt w.toList = true) (hw : Lexes w.toList us) :
    Writes (infixed a w b) (.symbol "(" :: (ts ++ us ++ vs) ++ [.symbol ")"]) := by
  have h := (((ha.afterWord lexes_open).beforeWord hbreaks (hb.afterWord hw)).closed rfl
    lexes_close)
  rw [Layout.infixed]
  simpa only [List.append_assoc, List.cons_append, List.nil_append] using h

theorem writes_joined {ls : List Layout} {ps : List Phrase}
    (h : List.Forall₂ (fun l (p : Phrase) => Writes l p.tokens) ls ps) :
    Writes (joined "," ls) (Phrase.separated (Phrase.tokenLists ps)) := by
  induction h with
  | nil => exact fun rest _ => rfl
  | @cons l p ls ps hl hrest ih =>
    cases hrest with
    | nil => exact hl
    | cons hm hrest =>
      have h := hl.beforeWord rfl (ih.afterWord lexes_comma)
      exact h

theorem Writes.call {f : String} {ls : List Layout} {ps : List Phrase}
    (hf : isWordText f.toList = true)
    (h : List.Forall₂ (fun l (p : Phrase) => Writes l p.tokens) ls ps) :
    Writes (.word (f ++ "(") :: joined "," ls ++ [.word ")"]) (Phrase.call f ps).tokens := by
  have hopen : Lexes (f ++ "(").toList [.word f, .symbol "("] := by
    have hword := lexes_nil.afterOpen.afterWord hf rfl
    rw [String.ofList_toList] at hword
    rw [String.toList_append]
    exact hword
  exact ((writes_joined h).afterWord hopen).closed rfl lexes_close

end Layout

end RowLedger
