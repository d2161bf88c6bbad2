import RowLedger.Proofs.Predicate.Spelling

/-! The forms of the builder have the tokens of their phrases, when their operands do. -/

namespace RowLedger

namespace Layout

open Lexeme

/-- The layout has the tokens of a phrase that may stand where an operand is awaited. -/
structure Spells (l : Layout) (p : Phrase) : Prop where
  writes : l.Writes p.tokens
  enclosed : p.Enclosed
  operand : p.isOperand = true

variable {a b r : Layout} {p q s : Phrase}

theorem spells_name (s : String) : Spells [.name s] (.name s) :=
  ⟨writes_name s, .name s, rfl⟩

theorem spells_constant (v : Value) : Spells [.constant v] .hole :=
  ⟨writes_constant v, .hole, rfl⟩

theorem Spells.strength (h : a.Spells p) : 3 ≤ p.strength := by
  rcases Bool.or_eq_true_iff.1 h.operand with hc | hn
  · rw [Phrase.strength_of_isClosed hc]
    decide
  · obtain ⟨q, rfl⟩ := h.enclosed.eq_not hn
    exact Nat.le_refl 3

theorem Spells.not (h : a.Spells p) :
    Spells (.word "NOT(" :: a ++ [.word ")"]) (.not (.paren p)) := by
  have hopen : Lexes "NOT(".toList [.word "NOT", .symbol "("] :=
    lexes_nil.afterOpen.afterWord (w := ['N', 'O', 'T']) (by decide) rfl
  exact ⟨(h.writes.afterWord hopen).closed rfl lexes_close, .not h.enclosed, rfl⟩

theorem Spells.binary {op : Operator} {w : String} (ha : a.Spells p) (hb : b.Spells q)
    (hbreaks : breaksAt w.toList = true) (hw : Lexes w.toList op.tokens)
    (his : op = .is → q.isClosed = true) :
    Spells (infixed a w b) (.paren (.binary op p q)) := by
  refine ⟨ha.writes.infixed hb.writes hbreaks hw, .paren ?_, rfl⟩
  by_cases hop : 4 ≤ op.strength
  · exact .binary hop ha.operand hb.operand his ha.enclosed hb.enclosed
  · have hop : op.strength < 3 := by
      revert hop
      cases op <;> decide
    exact .connective hop ha.strength hb.strength ha.enclosed hb.enclosed

theorem Spells.like (ha : a.Spells p) (hb : b.Spells q) :
    Spells (infixed a " like " b) (.paren (.like p q)) := by
  have hw : Lexes " like ".toList [.word "like"] :=
    (lexes_space.afterWord (w := ['l', 'i', 'k', 'e']) (by decide) rfl).afterSpace
  have hwrites := ha.writes.infixed hb.writes rfl hw
  rw [List.append_assoc, List.singleton_append] at hwrites
  exact ⟨hwrites, .paren (.like ha.operand hb.operand ha.enclosed hb.enclosed), rfl⟩

/-! A list, and the arguments of a call. -/

theorem writes_marks (vs : List Value) :
    Writes (joined "," (vs.map fun v => [.constant v]))
      (Phrase.separated (Phrase.tokenLists (List.replicate vs.length .hole))) := by
  refine writes_joined ?_
  induction vs with
  | nil => exact .nil
  | cons v vs ih => exact .cons (writes_constant v) ih

theorem Spells.among (ha : a.Spells p) (vs : List Value) :
    Spells
      (infixed a " in " (.word "(" :: joined "," (vs.map fun v => [.constant v]) ++ [.word ")"]))
      (.paren (.among p (List.replicate vs.length .hole))) := by
  have hw : Lexes " in ".toList [.word "in"] :=
    (lexes_space.afterWord (w := ['i', 'n']) (by decide) rfl).afterSpace
  have hlist := ((writes_marks vs).afterWord lexes_open).closed rfl lexes_close
  have hwrites := ha.writes.infixed hlist rfl hw
  refine ⟨?_, .paren (.among ha.operand ha.enclosed fun q hq => ?_), rfl⟩
  · simpa [Phrase.tokens] using hwrites
  · rw [List.eq_of_mem_replicate hq]
    exact .hole

theorem Spells.call {f : String} {ls : List Layout} {ps : List Phrase}
    (hf : isWordText f.toList = true) (hfree : Grammar.IsFree f) (h : List.Forall₂ Spells ls ps) :
    Spells (.word (f ++ "(") :: joined "," ls ++ [.word ")"]) (.call f ps) := by
  refine ⟨.call hf (h.imp fun _ _ h => h.writes), .call hfree ?_, rfl⟩
  induction h with
  | nil => exact nofun
  | cons hl _ ih => exact List.forall_mem_cons.2 ⟨hl.enclosed, ih⟩

/-! Texts that are looked for in others. -/

theorem lexes_positive : Lexes " >0 )".toList [.symbol ">", .number (.ofInt 0), .symbol ")"] := by
  intro rest
  have hnumeral : tokensOf ('0' :: ' ' :: ')' :: rest) =
      .number (.ofInt 0) :: tokensOf (' ' :: ')' :: rest) :=
    tokensOf_numeral 0 (breaks_cons (by decide))
  calc tokensOf (' ' :: '>' :: '0' :: ' ' :: ')' :: rest)
    _ = tokensOf ('>' :: '0' :: ' ' :: ')' :: rest) := tokensOf_space _
    _ = .symbol ">" :: tokensOf ('0' :: ' ' :: ')' :: rest) := tokensOf_single rfl rfl
    _ = .symbol ">" :: .number (.ofInt 0) :: .symbol ")" :: tokensOf rest := by
      rw [hnumeral, tokensOf_space, tokensOf_closeParen]

theorem lexes_openSpace : Lexes "( ".toList [.symbol "("] := lexes_space.afterOpen

theorem lexes_closeTwice : Lexes "))".toList [.symbol ")", .symbol ")"] :=
  lexes_close.afterClose

theorem lexes_commaSpace : Lexes ", ".toList [.symbol ","] := lexes_space.afterComma

theorem Spells.contains (ha : a.Spells p) (hb : b.Spells q) :
    Spells (.word "( " :: (.word "instr(" :: a ++ .word "," :: b ++ [.word ")"]) ++ [.word " >0 )"])
      (.paren (.binary .gt (.call "instr" [p, q]) (.numeral 0))) := by
  have hinstr : Lexes "instr(".toList [.word "instr", .symbol "("] :=
    lexes_nil.afterOpen.afterWord (w := ['i', 'n', 's', 't', 'r']) (by decide) rfl
  have hcall := ((ha.writes.afterWord hinstr).beforeWord rfl
    (hb.writes.afterWord lexes_comma)).closed rfl lexes_close
  have hwrites := (hcall.afterWord lexes_openSpace).closed rfl lexes_positive
  have henclosed : (Phrase.call "instr" [p, q]).Enclosed :=
    .call (by decide +kernel) (by simp [ha.enclosed, hb.enclosed])
  refine ⟨?_, .paren (.binary (by decide) rfl rfl nofun henclosed (.literal _)), rfl⟩
  simpa [Phrase.tokens, Phrase.tokenLists, Phrase.separated, tokens_numeral, Operator.tokens]
    using hwrites

theorem Spells.likePattern (hr : r.Spells s) (ha : a.Spells p) (hb : b.Spells q) :
    Spells (likeLayout r a b) (.likePattern s p q) := by
  have hlike : Lexes " like (".toList [.word "like", .symbol "("] :=
    (lexes_nil.afterOpen.afterSpace.afterWord (w := ['l', 'i', 'k', 'e'])
      (by decide) rfl).afterSpace
  have hconcat : Lexes " || ".toList [.symbol "||"] :=
    (lexes_space.afterPair (fun _ => rfl) rfl).afterSpace
  have hpattern := ha.writes.beforeWord rfl (hb.writes.afterWord hconcat)
  have hwrites := ((hr.writes.afterWord lexes_open).beforeWord rfl
    (hpattern.afterWord hlike)).closed rfl lexes_closeTwice
  have henclosed : (Phrase.paren (.binary .concat p q)).Enclosed :=
    .paren (.binary (by decide) ha.operand hb.operand nofun ha.enclosed hb.enclosed)
  refine ⟨?_, .paren (.like hr.operand rfl hr.enclosed henclosed), rfl⟩
  rw [likeLayout]
  simpa [Phrase.likePattern, Phrase.tokens, Operator.tokens] using hwrites

theorem spells_anyString : Spells [.word "'%'"] (.text "%") :=
  ⟨writes_text rfl, .literal _, rfl⟩

/-- A slice starts at a phrase that need not be closed, since commas stand around it. -/
theorem Spells.slice (n : Nat) (hr : r.Spells s) (ha : a.Writes p.tokens) (hp : p.Enclosed)
    (hb : b.Spells q) : Spells (sliceLayout r a n b) (.slice s p n q) := by
  have hsubstr : Lexes "substr(".toList [.word "substr", .symbol "("] :=
    lexes_nil.afterOpen.afterWord (w := ['s', 'u', 'b', 's', 't', 'r']) (by decide) rfl
  have heq : Lexes " =  ".toList [.symbol "="] :=
    (lexes_space.afterSpace.afterSign (fun _ => rfl) rfl).afterSpace
  have hcall := (((hr.writes.afterWord hsubstr).beforeWord rfl
    (ha.afterWord lexes_commaSpace)).beforeWord rfl
      ((writes_numeral n).afterWord lexes_commaSpace)).closed rfl lexes_close
  have hwrites := ((hcall.afterWord lexes_openSpace).beforeWord rfl
    (hb.writes.afterWord heq)).closed rfl lexes_close
  have henclosed : (Phrase.call "substr" [s, p, .numeral n]).Enclosed :=
    .call (by decide +kernel) (by simp [hr.enclosed, hp, Phrase.numeral, Phrase.Enclosed.literal])
  refine ⟨?_, .paren (.binary (by decide) rfl hb.operand (by rintro ⟨⟩) henclosed hb.enclosed), rfl⟩
  rw [sliceLayout]
  simpa [Phrase.slice, Phrase.tokens, Phrase.tokenLists, Phrase.separated, Operator.tokens]
    using hwrites

theorem writes_length (n : Nat) :
    Writes [.word (" - " ++ Text.showInt n ++ "+1")]
      (.symbol "-" :: (Phrase.numeral n).tokens ++ .symbol "+" :: (Phrase.numeral 1).tokens) := by
  intro rest hrest
  have hone : tokensOf ('1' :: rest) = .number (.ofInt 1) :: tokensOf rest :=
    tokensOf_numeral 1 hrest
  have hn : tokensOf (Text.natDigits n ++ '+' :: '1' :: rest) =
      .number (.ofInt n) :: tokensOf ('+' :: '1' :: rest) :=
    tokensOf_numeral n (breaks_cons (by decide))
  have hminus : tokensOf ('-' :: ' ' :: (Text.natDigits n ++ '+' :: '1' :: rest)) =
      .symbol "-" :: tokensOf (' ' :: (Text.natDigits n ++ '+' :: '1' :: rest)) :=
    tokensOf_single rfl rfl
  simp [text, Spot.text, Text.toList_showInt_natCast, tokens_numeral, hminus, hn, hone]

theorem Spells.suffixStart_fits (n : Nat) (hr : r.Spells s) :
    (suffixStart r n).Writes (Phrase.suffixStart s n).tokens ∧
      (Phrase.suffixStart s n).Enclosed := by
  have hlength : Lexes "length(".toList [.word "length", .symbol "("] :=
    lexes_nil.afterOpen.afterWord (w := ['l', 'e', 'n', 'g', 't', 'h']) (by decide) rfl
  have hcall := (hr.writes.afterWord hlength).closed rfl lexes_close
  have henclosed : (Phrase.call "length" [s]).Enclosed :=
    .call (by decide +kernel) (by simp [hr.enclosed])
  have hbreaks : breaksAt (" - " ++ Text.showInt n ++ "+1").toList = true := by
    simp [breaksAt]
  have hwrites := hcall.beforeWord hbreaks (writes_length n)
  refine ⟨?_, .chain (by decide) (by decide) rfl rfl rfl henclosed (.literal _) (.literal _)⟩
  rw [Layout.suffixStart]
  simpa [Phrase.suffixStart, Phrase.tokens, Phrase.tokenLists, Phrase.separated, Operator.tokens]
    using hwrites

theorem Spells.equals (ha : a.Spells p) (hb : b.Spells q) :
    Spells (.word "(" :: a ++ .word " = (" :: b ++ [.word "))"])
      (.paren (.binary .eq p (.paren q))) := by
  have heq : Lexes " = (".toList [.symbol "=", .symbol "("] :=
    (lexes_nil.afterOpen.afterSpace.afterSign (fun _ => rfl) rfl).afterSpace
  have hwrites := ((ha.writes.afterWord lexes_open).beforeWord rfl
    (hb.writes.afterWord heq)).closed rfl lexes_closeTwice
  refine ⟨?_, .paren (.binary (by decide) ha.operand rfl nofun ha.enclosed (.paren hb.enclosed)),
    rfl⟩
  simpa [Phrase.tokens, Operator.tokens] using hwrites

/-- A function of one argument. -/
theorem Spells.function {f : List Char} {w : String} (ha : a.Spells p)
    (hw : w.toList = '(' :: (f ++ ['('])) (hf : isWordText f = true)
    (hfree : Grammar.IsFree (String.ofList f)) :
    Spells (.word w :: a ++ [.word "))"]) (.paren (.call (String.ofList f) [p])) := by
  have hopen : Lexes w.toList [.symbol "(", .word (String.ofList f), .symbol "("] := by
    rw [hw]
    exact (lexes_nil.afterOpen.afterWord hf rfl).afterOpen
  have hwrites := (ha.writes.afterWord hopen).closed rfl lexes_closeTwice
  refine ⟨?_, .paren (.call hfree (by simp [ha.enclosed])), rfl⟩
  simpa [Phrase.tokens, Phrase.tokenLists, Phrase.separated] using hwrites

theorem Spells.replace (hr : r.Spells s) (ha : a.Spells p) (hb : b.Spells q) :
    Spells (.word "(replace(" :: r ++ .word "," :: a ++ .word "," :: b ++ [.word "))"])
      (.paren (.call "replace" [s, p, q])) := by
  have hopen : Lexes "(replace(".toList [.symbol "(", .word "replace", .symbol "("] :=
    (lexes_nil.afterOpen.afterWord (w := ['r', 'e', 'p', 'l', 'a', 'c', 'e']) (by decide)
      rfl).afterOpen
  have hwrites := (((hr.writes.afterWord hopen).beforeWord rfl
    (ha.writes.afterWord lexes_comma)).beforeWord rfl
      (hb.writes.afterWord lexes_comma)).closed rfl lexes_closeTwice
  have henclosed : (Phrase.call "replace" [s, p, q]).Enclosed :=
    .call (by decide +kernel) (by simp [hr.enclosed, ha.enclosed, hb.enclosed])
  refine ⟨?_, .paren henclosed, rfl⟩
  simpa [Phrase.tokens, Phrase.tokenLists, Phrase.separated] using hwrites

theorem lexes_isNull : Lexes " is null or ".toList [.word "is", .word "null", .word "or"] := by
  have hor := (lexes_space.afterWord (w := ['o', 'r']) (by decide) rfl).afterSpace
  have hnull := (hor.afterWord (w := ['n', 'u', 'l', 'l']) (by decide) rfl).afterSpace
  exact (hnull.afterWord (w := ['i', 's']) (by decide) rfl).afterSpace

theorem lexes_isEmpty : Lexes " = '')".toList [.symbol "=", .text "", .symbol ")"] := by
  intro rest
  have htext : tokensOf ('\'' :: '\'' :: ')' :: rest) = .text "" :: tokensOf (')' :: rest) :=
    tokensOf_text "" (breaks_cons (by decide))
  calc tokensOf (' ' :: '=' :: ' ' :: '\'' :: '\'' :: ')' :: rest)
    _ = tokensOf ('=' :: ' ' :: '\'' :: '\'' :: ')' :: rest) := tokensOf_space _
    _ = .symbol "=" :: tokensOf (' ' :: '\'' :: '\'' :: ')' :: rest) := tokensOf_single rfl rfl
    _ = .symbol "=" :: .text "" :: .symbol ")" :: tokensOf rest := by
      rw [tokensOf_space, htext, tokensOf_closeParen]

theorem Spells.isNullOrEmpty (ha : a.Spells p) :
    Spells (.word "(" :: a ++ .word " is null or " :: a ++ [.word " = '')"])
      (.paren (.binary .or (.binary .is p (.literal .null)) (.binary .eq p (.text "")))) := by
  have hwrites := ((ha.writes.afterWord lexes_open).beforeWord rfl
    (ha.writes.afterWord lexes_isNull)).closed rfl lexes_isEmpty
  have hnull : (Phrase.binary .is p (.literal .null)).Enclosed :=
    .binary (by decide) ha.operand rfl (fun _ => rfl) ha.enclosed (.literal _)
  have hempty : (Phrase.binary .eq p (.text "")).Enclosed :=
    .binary (by decide) ha.operand rfl nofun ha.enclosed (.literal _)
  have htight : 3 ≤ 4 := by decide
  refine ⟨?_, .paren (.connective (by decide) htight htight hnull hempty), rfl⟩
  simpa [Phrase.tokens, Phrase.text, Phrase.literalToken, Operator.tokens] using hwrites

end Layout

end RowLedger
