import RowLedger.Proofs.Database.Binding
import RowLedger.Proofs.Predicate.Grouping

/-!
What a compiled predicate means to SQLite: its text is read as a term, the term is resolved in a
table and evaluated on a row, with the parameters bound by position.
-/

namespace RowLedger

/-- What is bound, by position. -/
def bindings (ps : List Param) : List Datum := ps.map fun p => .ofSql p.value

namespace Condition

/-- The term that the text is, as a whole. -/
def read (c : Condition) : Except Fault NamedTerm := do
  let (u, s) ← Grammar.term ⟨Lexeme.ofText (Dialect.sqlite.render c.sql), false, 0⟩
  if s.rest.isEmpty then return u else throw .incomplete

def worth (c : Condition) (source : Option Table) (r : Option StoredRow) : Except Fault Datum := do
  (← c.read).worth source r (bindings c.params)

/-- Is the condition true on the row? -/
def holds (c : Condition) (source : Option Table) (r : Option StoredRow) : Except Fault Bool := do
  return (← c.worth source r).truth? == some true

end Condition

namespace Compile

variable {t : Mapping} {f : Fragment}

theorem holesOfAll_replicate (n : Nat) : Phrase.holesOfAll (List.replicate n .hole) = n := by
  induction n with
  | zero => rfl
  | succ n ih => rw [List.replicate_succ, Phrase.holesOfAll, ih, Phrase.holes, Nat.add_comm]

theorem holes_args {as : List Expr} {fs : List Fragment}
    (h : List.Forall₂ (fun a g => (a.phrase t).holes = g.params.length) as fs) :
    Phrase.holesOfAll (as.map (Expr.phrase t)) = (fs.flatMap Fragment.params).length := by
  induction h with
  | nil => rfl
  | cons ha _ ih =>
    rw [List.map_cons, Phrase.holesOfAll, List.flatMap_cons, List.length_append, ha, ih]

theorem holes_binary {op : BinaryOp} {a b : Expr} {fa fb : Fragment}
    (hna : fa.isNullParam = a.isNullParameter) (hnb : fb.isNullParam = b.isNullParameter)
    (hfa : (a.phrase t).holes = fa.params.length) (hfb : (b.phrase t).holes = fb.params.length)
    (h : comparison .sqlite op fa fb = .ok f) :
    ((Expr.binary op a b).phrase t).holes = f.params.length := by
  rw [Expr.phrase, ← hna, ← hnb]
  obtain ⟨hn, k, -, rfl⟩ | ⟨hl, hn, k, -, rfl⟩ | ⟨hl, hr, w, -, rfl⟩ := comparison_ok h
  · simp [hn, Phrase.ofBinary, Phrase.holes, nullFragment, Dialect.bindsNullComparisons, hfa, hfb]
  · simp [hl, hn, Phrase.ofBinary, Phrase.holes, nullFragment, Dialect.bindsNullComparisons, hfa,
      hfb]
  · simp [hl, hr, Phrase.ofBinary, Phrase.holes, operatorFragment, hfa, hfb]

/-! Where a text is looked for at an end of another, the receiver may stand twice. -/

section Ends

variable {p q : Phrase} {r arg : Fragment}

theorem holes_startPattern (hp : p.holes = r.params.length) (hq : q.holes = arg.params.length) :
    (Phrase.likePattern p q (.text "%")).holes = (startPattern .sqlite r arg).params.length := by
  simp [Phrase.likePattern, Phrase.holes, Phrase.text, startPattern, hp, hq]

theorem holes_endPattern (hp : p.holes = r.params.length) (hq : q.holes = arg.params.length) :
    (Phrase.likePattern p (.text "%") q).holes = (endPattern .sqlite r arg).params.length := by
  simp [Phrase.likePattern, Phrase.holes, Phrase.text, endPattern, hp, hq]

theorem holes_startSlice (hp : p.holes = r.params.length) (hq : q.holes = arg.params.length)
    (m n : Nat) :
    (Phrase.slice p (.numeral 1) m q).holes = (startSlice .sqlite r arg n).params.length := by
  simp [Phrase.slice, Phrase.holes, Phrase.holesOfAll, Phrase.numeral, startSlice, hp, hq]

theorem holes_endSlice (hp : p.holes = r.params.length) (hq : q.holes = arg.params.length)
    (m n : Nat) :
    (Phrase.slice p (.suffixStart p m) m q).holes =
      (endSlice .sqlite r arg n).params.length := by
  simp [Phrase.slice, Phrase.suffixStart, Phrase.holes, Phrase.holesOfAll, Phrase.numeral,
    endSlice, repeated, Dialect.bindsByPosition, hp, hq, Nat.add_assoc]

end Ends

/-- A phrase has as many parameters as are bound to it. -/
theorem Assembled.holes {e : Expr} (h : Assembled t .sqlite e f) :
    (e.phrase t).holes = f.params.length := by
  induction h with
  | column _ => rfl
  | parameter he _ _ =>
    rw [Expr.phrase_of_isParameter t he]
    rfl
  | binary _ _ hna hnb h iha ihb => exact holes_binary hna hnb iha ihb h
  | not _ ih => rw [Expr.phrase, Phrase.holes, Phrase.holes, ih, negation]
  | like _ _ ihe iha | equals _ _ ihe iha =>
    rw [List.length_append, ← ihe, ← iha]
    rfl
  | contains hlist _ _ ihe iha =>
    rw [List.length_append, ← ihe, ← iha, Expr.phrase_contains t _ _ hlist]
    rfl
  | @isIn _ vs _ ps _ hps ih =>
    have hmarks : Phrase.holesOfAll (List.replicate vs.length .hole) = ps.length := by
      rw [holesOfAll_replicate, hps.length_eq]
    rw [List.length_append, ← ih, ← hmarks]
    rfl
  | startSlice _ _ _ ihe iha => exact holes_startSlice ihe iha _ _
  | startPattern hc _ _ ihe iha =>
    rw [Expr.phrase_startsWithMode, if_pos hc]
    exact holes_startPattern ihe iha
  | startsWithMode hc _ ih =>
    rw [Expr.phrase_startsWithMode, if_neg (ne_true_of_eq_false hc)]
    exact ih
  | endSlice _ _ _ ihe iha => exact holes_endSlice ihe iha _ _
  | endPattern hc _ _ ihe iha =>
    rw [Expr.phrase_endsWithMode, if_pos hc]
    exact holes_endPattern ihe iha
  | endsWithMode hc _ ih =>
    rw [Expr.phrase_endsWithMode, if_neg (ne_true_of_eq_false hc)]
    exact ih
  | toLower _ ih | toUpper _ ih => exact (ih :)
  | replace _ _ _ ihe iha ihb =>
    rw [List.length_append, List.length_append, ← ihe, ← iha, ← ihb, Nat.add_assoc]
    rfl
  | @isNullOrEmpty _ g _ ih =>
    have htwice : repeated .sqlite g.params = g.params := rfl
    rw [htwice, List.length_append, ← ih]
    rfl
  | method _ hlength _ ih ihs =>
    have hargs := holes_args (List.forall₂_iff_zip.2 ⟨hlength, fun hag => ihs _ _ hag⟩)
    rw [Expr.phrase_method, Phrase.holes, Phrase.holesOfAll, ih, hargs]
    simp [plainCall]
  | convert _ _ _ hparams ih => rw [hparams, ← ih, Expr.phrase]
  | compareString _ _ _ iha ihb ihc =>
    simp only [plainCall, Option.toList_none, List.nil_append, List.flatMap_cons,
      List.flatMap_nil, List.length_append, ← iha, ← ihb, ← ihc]
    rfl

theorem Compiles.read {e : Expr} (he : e.Built) (hn : e.Callable) (h : Compiles t .sqlite e f) :
    Condition.read ⟨f.sql, f.params⟩ = .ok ((e.phrase t).regrouped.term 0) := by
  have hspells := (h.assembled he).spells hn
  have htokens : (Lexeme.ofText (Dialect.sqlite.render f.sql)).map Lexeme.token =
      (e.phrase t).tokens := by
    have hwrites := hspells.writes [] Lexeme.breaks_nil
    rw [List.append_nil, Lexeme.tokensOf_nil, List.append_nil] at hwrites
    rw [Dialect.render, (h.assembled he).writes.text]
    exact hwrites
  rw [Condition.read, hspells.enclosed.term_read htokens]
  rfl

/-- A predicate is worth what its phrase is, as that is read. -/
theorem Compiles.worth {e : Expr} (he : e.Built) (hn : e.Callable) (h : Compiles t .sqlite e f)
    (source : Option Table) (r : Option StoredRow) :
    Condition.worth ⟨f.sql, f.params⟩ source r =
      ((e.phrase t).regrouped.term 0).worth source r (bindings f.params) := by
  rw [Condition.worth, h.read he hn]
  rfl

theorem bindings_of_binds {vs : List Value} {ps qs : List Param}
    (hps : List.Forall₂ Param.Binds vs ps) (hqs : List.Forall₂ Param.Binds vs qs) :
    bindings ps = bindings qs := by
  induction hps generalizing qs with
  | nil =>
    cases hqs
    rfl
  | cons hp _ ih =>
    obtain _ | ⟨hq, hqs⟩ := hqs
    have hvalue := Except.ok.inj (hp.symm.trans hq)
    rw [bindings, List.map_cons, hvalue]
    exact congrArg (_ :: ·) (ih hqs)

/-- Whichever names are drawn, the constants of the layout are bound. -/
theorem Compiles.bindings_eq {e : Expr} {g : Fragment} (he : e.Built)
    (hf : Compiles t .sqlite e f) (hg : Compiles t .sqlite e g) :
    bindings f.params = bindings g.params :=
  bindings_of_binds (hf.assembled he).writes.bound (hg.assembled he).writes.bound

/-- As much is bound as the phrase has parameters, also as it is read. -/
theorem Compiles.length_bindings {e : Expr} (he : e.Built) (h : Compiles t .sqlite e f) :
    (bindings f.params).length = (e.phrase t).regrouped.holes := by
  rw [bindings, List.length_map, Phrase.holes_regrouped, (h.assembled he).holes]

/-- A predicate has its value also as a part of another, whose other parts are bound as well. -/
theorem Compiles.yields {e : Expr} {g : Fragment} {source : Option Table} {r : Option StoredRow}
    {d : Datum} (he : e.Built) (hn : e.Callable) (hf : Compiles t .sqlite e f)
    (hg : Compiles t .sqlite e g) (hd : Condition.worth ⟨f.sql, f.params⟩ source r = .ok d)
    (before after : List Datum) :
    ∃ w, Term.Yields source r (before ++ bindings g.params ++ after)
      ((e.phrase t).regrouped.term before.length) w d := by
  -- the same values are bound, only further on
  have halike : BoundAlike (before ++ bindings g.params ++ after) (bindings g.params)
      before.length 0 (e.phrase t).regrouped.holes := by
    rw [← hg.length_bindings he]
    exact BoundAlike.append before (bindings g.params) after
  rw [hf.worth he hn, hf.bindings_eq he hg] at hd
  exact Term.worth_ok_iff.1 ((Phrase.worth_term source r halike).trans hd)

end Compile

end RowLedger
