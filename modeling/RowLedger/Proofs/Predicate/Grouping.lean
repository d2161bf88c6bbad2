import RowLedger.Proofs.Predicate.Alignment
import RowLedger.Proofs.Predicate.Reading

/-!
How the text of a predicate is read. Every form of the builder stands between parentheses or in a
call, but a negation has none around it: an operator after it, that binds more strongly, belongs to
what is negated.
-/

namespace RowLedger

/-- Can the text name a function? -/
def IsFunctionName (s : String) : Prop := Lexeme.isWordText s.toList = true ∧ Grammar.IsFree s

instance (s : String) : Decidable (IsFunctionName s) := inferInstanceAs (Decidable (_ ∧ _))

/-- A method without a form of its own is called by its name in small letters. -/
def Method.Callable : Method → Prop
  | other name => IsFunctionName (Text.toLower name)
  | _ => True

namespace Expr

mutual

def Callable : Expr → Prop
  | column _ | constant _ | collection _ => True
  | binary _ a b => Callable a ∧ Callable b
  | not e | convert e _ => Callable e
  | call m r as => m.Callable ∧ CallableReceiver r ∧ CallableArgs as
  | conditional test a b => Callable test ∧ Callable a ∧ Callable b

def CallableReceiver : Option Expr → Prop
  | none => True
  | some e => Callable e

def CallableArgs : List Expr → Prop
  | [] => True
  | e :: es => Callable e ∧ CallableArgs es

end

variable (t : Mapping)

theorem phrase_of_isParameter {e : Expr} (h : e.isParameter = true) : e.phrase t = .hole := by
  induction e using isParameter.induct with
  | case1 v => rfl
  | case2 e k ih => exact ih h
  | case3 e hc hk => simp [isParameter] at h

/-! The phrases of the calls that the builder makes. -/

variable (e a b : Expr)

theorem phrase_contains (he : e.isCollection = false) :
    (e.contains a).phrase t =
      .paren (.binary .gt (.call "instr" [e.phrase t, a.phrase t]) (.numeral 0)) := by
  cases e <;> first | rfl | cases he

theorem phrase_startsWithMode (c : Comparison) :
    (e.startsWithMode a c).phrase t =
      if c.ignoresCase then .likePattern (e.phrase t) (a.phrase t) (.text "%")
      else (e.startsWith a).phrase t := by
  change (if modeIgnoresCase [a, mode c] then _ else _) = _
  rw [modeIgnoresCase_mode]
  rfl

theorem phrase_endsWithMode (c : Comparison) :
    (e.endsWithMode a c).phrase t =
      if c.ignoresCase then .likePattern (e.phrase t) (.text "%") (a.phrase t)
      else (e.endsWith a).phrase t := by
  change (if modeIgnoresCase [a, mode c] then _ else _) = _
  rw [modeIgnoresCase_mode]
  rfl

theorem phrases_eq_map (as : List Expr) : phrases t as = as.map (phrase t) := by
  induction as with
  | nil => rfl
  | cons a as ih => rw [phrases, ih, List.map_cons]

theorem phrase_method (name : String) (as : List Expr) :
    (call (.other name) (some e) as).phrase t =
      .call (Text.toLower name) (e.phrase t :: as.map (phrase t)) := by
  rw [← phrases_eq_map]
  rfl

end Expr

namespace Compile

open Layout

variable {t : Mapping} {f : Fragment}

theorem spells_binary {op : BinaryOp} {a b : Expr} {fa fb : Fragment}
    (hna : fa.isNullParam = a.isNullParameter) (hnb : fb.isNullParam = b.isNullParameter)
    (ha : (a.layout t).Spells (a.phrase t)) (hb : (b.layout t).Spells (b.phrase t))
    (h : comparison .sqlite op fa fb = .ok f) :
    ((Expr.binary op a b).layout t).Spells ((Expr.binary op a b).phrase t) := by
  have hbreaks (w : String) : Lexeme.breaksAt (" " ++ w ++ " ").toList = true := by
    simp [Lexeme.breaksAt]
  have hclosed {e : Expr} {g : Fragment} (hg : g.isNullParam = e.isNullParameter)
      (h : g.isNullParam = true) : (e.phrase t).isClosed = true := by
    rw [hg, Expr.isNullParameter, Bool.and_eq_true] at h
    rw [Expr.phrase_of_isParameter t h.1]
    rfl
  rw [Expr.layout, Expr.phrase, ← hna, ← hnb]
  obtain ⟨hn, k, hk, rfl⟩ | ⟨hl, hn, k, hk, rfl⟩ | ⟨hl, hr, w, hw, rfl⟩ := comparison_ok h
  · rw [hn, Layout.ofBinary, hk]
    exact hb.binary ha (hbreaks k) (Lexeme.lexes_nullOperator hk) fun _ => hclosed hna hn
  · rw [hl, hn, Layout.ofBinary, hk]
    exact ha.binary hb (hbreaks k) (Lexeme.lexes_nullOperator hk) fun _ => hclosed hnb hn
  · rw [hl, hr, Layout.ofBinary, hw]
    refine ha.binary hb (hbreaks w) (Lexeme.lexes_operator hw) fun hop => ?_
    cases op <;> cases hop

theorem spells_args {as : List Expr} {fs : List Fragment} (hn : Expr.CallableArgs as)
    (h : List.Forall₂ (fun a (_ : Fragment) => a.Callable → (a.layout t).Spells (a.phrase t))
      as fs) :
    List.Forall₂ Spells (as.map (Expr.layout t)) (as.map (Expr.phrase t)) := by
  induction h with
  | nil => exact .nil
  | cons ha _ ih => exact .cons (ha hn.1) (ih hn.2)

/-- What is built has the tokens of its phrase. -/
theorem Assembled.spells {e : Expr} (h : Assembled t .sqlite e f) (hn : e.Callable) :
    (e.layout t).Spells (e.phrase t) := by
  induction h with
  | column _ => exact spells_name _
  | parameter he _ _ =>
    rw [Expr.layout_of_isParameter t he, Expr.phrase_of_isParameter t he]
    exact spells_constant _
  | binary _ _ hna hnb h iha ihb => exact spells_binary hna hnb (iha hn.1) (ihb hn.2) h
  | not _ ih => exact (ih hn).not
  | like _ _ ihe iha => exact (ihe hn.2.2.1).like (iha hn.2.2.2.1)
  | contains hlist _ _ ihe iha =>
    rw [Expr.layout_contains t _ _ hlist, Expr.phrase_contains t _ _ hlist]
    exact (ihe hn.2.1).contains (iha hn.2.2.1)
  | @isIn _ vs _ _ _ _ ih => exact (ih hn.2.2.1).among vs
  | startSlice _ _ _ ihe iha =>
    exact (ihe hn.2.1).slice _ (writes_numeral 1) (.literal _) (iha hn.2.2.1)
  | startPattern hc _ _ ihe iha =>
    rw [Expr.layout_startsWithMode, Expr.phrase_startsWithMode, if_pos hc, if_pos hc]
    exact (ihe hn.2.1).likePattern (iha hn.2.2.1) spells_anyString
  | startsWithMode hc _ ih =>
    have hc := ne_true_of_eq_false hc
    rw [Expr.layout_startsWithMode, Expr.phrase_startsWithMode, if_neg hc, if_neg hc]
    exact ih ⟨hn.1, hn.2.1, hn.2.2.1, trivial⟩
  | endSlice _ _ _ ihe iha =>
    have he := ihe hn.2.1
    have hstart := he.suffixStart_fits
    exact he.slice _ (hstart _).1 (hstart _).2 (iha hn.2.2.1)
  | endPattern hc _ _ ihe iha =>
    rw [Expr.layout_endsWithMode, Expr.phrase_endsWithMode, if_pos hc, if_pos hc]
    exact (ihe hn.2.1).likePattern spells_anyString (iha hn.2.2.1)
  | endsWithMode hc _ ih =>
    have hc := ne_true_of_eq_false hc
    rw [Expr.layout_endsWithMode, Expr.phrase_endsWithMode, if_neg hc, if_neg hc]
    exact ih ⟨hn.1, hn.2.1, hn.2.2.1, trivial⟩
  | equals _ _ ihe iha => exact (ihe hn.2.1).equals (iha hn.2.2.1)
  | toLower _ ih =>
    exact (ih hn.2.1).function (f := ['l', 'o', 'w', 'e', 'r']) rfl (by decide)
      (by decide +kernel)
  | toUpper _ ih =>
    exact (ih hn.2.1).function (f := ['u', 'p', 'p', 'e', 'r']) rfl (by decide)
      (by decide +kernel)
  | replace _ _ _ ihe iha ihb => exact (ihe hn.2.1).replace (iha hn.2.2.1) (ihb hn.2.2.2.1)
  | isNullOrEmpty _ ih => exact (ih hn.2.2.1).isNullOrEmpty
  | method _ hlength _ ih ihs =>
    have hargs := List.forall₂_iff_zip.2 ⟨hlength, fun hag => ihs _ _ hag⟩
    rw [Expr.layout_method, Expr.phrase_method]
    exact .call hn.1.1 hn.1.2 (.cons (ih hn.2.1) (spells_args hn.2.2 hargs))
  | convert he _ _ _ ih =>
    rw [Expr.layout, Expr.phrase, he, if_neg Bool.false_ne_true]
    exact ih hn
  | compareString _ _ _ iha ihb _ =>
    have hname : IsFunctionName (Text.toLower Method.compareString.name) := by decide +kernel
    rw [Expr.layout_compareString]
    exact .call hname.1 hname.2 (.cons (iha hn.2.2.1) (.cons (ihb hn.2.2.2.1)
      (.cons (spells_constant _) .nil)))

end Compile

/-- The text of a predicate is read as a whole, each bare negation with the operators after it that
bind more strongly. So the operators have the operands that the predicate gave them exactly when no
such negation stands on the left of one. -/
theorem compile_grouped_iff {t : Mapping} {e : Expr} {c : Condition} (he : e.Built)
    (hn : e.opened.Callable) (hc : compile e t .sqlite = .ok c) :
    ∃ u n, Grammar.term ⟨Lexeme.ofText (Dialect.sqlite.render c.sql), false, 0⟩ =
        .ok (u, ⟨[], false, n⟩) ∧
      (u = (e.opened.phrase t).term 0 ↔ (e.opened.phrase t).Shielded) := by
  obtain ⟨f, hf, rfl⟩ := Compile.compiles_of_compile hc
  have htext : Dialect.sqlite.render f.sql = (e.opened.layout t).text :=
    congrArg String.join (hf.assembled he.opened).writes.text
  have hspells := (hf.assembled he.opened).spells hn
  have htokens : (Lexeme.ofText (Dialect.sqlite.render f.sql)).map Lexeme.token =
      (e.opened.phrase t).tokens := by
    have hwrites := hspells.writes [] Lexeme.breaks_nil
    rw [List.append_nil, Lexeme.tokensOf_nil, List.append_nil, ← htext] at hwrites
    exact hwrites
  exact ⟨_, _, hspells.enclosed.term_read htokens, Phrase.term_regrouped_iff⟩

/-- A negation on the left of a comparison with a value takes the comparison in. -/
theorem Expr.not_shielded (t : Mapping) {op : BinaryOp} {a b : Expr}
    (hop : 4 ≤ op.operator.strength) (hb : b.isNullParameter = false) :
    ¬((a.not.binary op b).phrase t).Shielded := by
  rw [phrase, hb]
  exact fun h => Bool.noConfusion (h.1 hop)

def Samples.members : Mapping := Samples.tableOf "Member" (Samples.one "active" .bool)

/-- Is what is negated equal to true? -/
def Samples.negatedFlag : Expr := (Expr.column "active").not.eq (.constant (.bool true))

/-- What is read negates the comparison, and was to compare the negation. -/
theorem negatedFlag_grouped :
    Samples.negatedFlag.Built ∧ Samples.negatedFlag.opened.Callable ∧
    ∃ c, compile Samples.negatedFlag Samples.members .sqlite = .ok c ∧
      Dialect.sqlite.render c.sql = "(NOT(\"Active\") = ?)" ∧
      ∃ u n, Grammar.term ⟨Lexeme.ofText (Dialect.sqlite.render c.sql), false, 0⟩ =
          .ok (u, ⟨[], false, n⟩) ∧
        u ≠ .binary .eq (.not (.column { name := "Active", maybeText := true }))
          (.parameter 1) := by
  have hbuilt : Samples.negatedFlag.Built := .binary .eq (.not (.column _)) (.constant _)
  have hcallable : Samples.negatedFlag.opened.Callable := ⟨trivial, trivial⟩
  have htext : (compile Samples.negatedFlag Samples.members .sqlite).map
      (fun c => Dialect.sqlite.render c.sql) = .ok "(NOT(\"Active\") = ?)" := by
    decide +kernel
  obtain ⟨c, hc, hrender⟩ := except_map_ok.1 htext
  obtain ⟨u, n, hread, hgrouped⟩ := compile_grouped_iff hbuilt hcallable hc
  refine ⟨hbuilt, hcallable, c, hc, hrender, u, n, hread, fun hu => ?_⟩
  have hphrase : (Samples.negatedFlag.opened.phrase Samples.members).term 0 =
      .binary .eq (.not (.column { name := "Active", maybeText := true })) (.parameter 1) := by
    rfl
  exact Expr.not_shielded _ (by decide) rfl (hgrouped.1 (hu.trans hphrase.symm))

end RowLedger
