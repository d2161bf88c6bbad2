import RowLedger.Proofs.Predicate.EndTests

/-!
Three-way comparisons in SQLite. The operator that a three-way comparison stands on the left of is
put between the texts that are compared, and what stood on its right is dropped. That is the
comparison of the three-way result with zero, whatever it was to be compared with.
-/

namespace RowLedger

/-- The number that stands for an order. -/
def threeWay : Ordering → Int
  | .lt => -1
  | .eq => 0
  | .gt => 1

namespace BinaryOp

/-- The comparison of whole numbers. An operator of another kind relates none. -/
def Relates : BinaryOp → Int → Int → Prop
  | eq, m, n => m = n
  | ne, m, n => m ≠ n
  | lt, m, n => m < n
  | le, m, n => m ≤ n
  | gt, m, n => n < m
  | ge, m, n => n ≤ m
  | _, _, _ => False

instance (op : BinaryOp) (m n : Int) : Decidable (op.Relates m n) :=
  match op with
  | eq => inferInstanceAs (Decidable (m = n))
  | ne => inferInstanceAs (Decidable (m ≠ n))
  | lt => inferInstanceAs (Decidable (m < n))
  | le => inferInstanceAs (Decidable (m ≤ n))
  | gt => inferInstanceAs (Decidable (n < m))
  | ge => inferInstanceAs (Decidable (n ≤ m))
  | bitAnd | bitOr | and | or | add | subtract | multiply | divide =>
    inferInstanceAs (Decidable False)

variable {op : BinaryOp}

theorem isComparison_iff :
    op.IsComparison ↔ op = eq ∨ op = ne ∨ op = lt ∨ op = le ∨ op = gt ∨ op = ge := by
  simp [IsComparison]

/-- What relates each three-way result to a number as it does to zero relates them to zero. -/
theorem relates_threeWay_iff (hop : op.IsComparison) (k : Int) :
    (∀ o, op.Relates (threeWay o) k ↔ op.Relates (threeWay o) 0) ↔ k = 0 := by
  refine ⟨fun h => ?_, fun h _ => by rw [h]⟩
  have hlt := h .lt
  have heq := h .eq
  have hgt := h .gt
  rcases isComparison_iff.1 hop with rfl | rfl | rfl | rfl | rfl | rfl <;>
    dsimp only [Relates, threeWay] at hlt heq hgt <;> omega

end BinaryOp

/-- A comparison of texts asks for their order. -/
theorem Operator.apply_comparison {op : BinaryOp} (hop : op.IsComparison) (c : Datum.Comparing)
    (x y : String) :
    op.operator.apply c (.text x) (.text y) =
      .ofBool (op.Relates (threeWay (Datum.compared c (.text x) (.text y))) 0) := by
  rcases BinaryOp.isComparison_iff.1 hop with rfl | rfl | rfl | rfl | rfl | rfl <;>
    simp only [BinaryOp.operator, Operator.apply, Datum.relates] <;>
    cases Datum.compared c (.text x) (.text y) <;> rfl

namespace Term

variable {w v w' v' : Term CellRef} {ps qs ps' qs' : List Datum} {source : Option Table}

/-- Terms that are the same but for their parameters are compared alike. -/
theorem comparing_of_bound (hw : w.bound ps = w'.bound ps') (hv : v.bound qs = v'.bound qs') :
    comparing w v = comparing w' v' := by
  have affinity {w w' : Term CellRef} {ps ps' : List Datum} (h : w.bound ps = w'.bound ps') :
      w.affinity? = w'.affinity? := by
    simpa only [affinity?_bound] using congrArg affinity? h
  have explicitly {w w' : Term CellRef} {ps ps' : List Datum} (h : w.bound ps = w'.bound ps') :
      w.explicitCollation? = w'.explicitCollation? := by
    simpa only [explicitCollation?_bound] using congrArg explicitCollation? h
  have collation {w w' : Term CellRef} {ps ps' : List Datum} (h : w.bound ps = w'.bound ps') :
      w.collation? = w'.collation? := by
    simpa only [collation?_bound] using congrArg collation? h
  simp only [comparing, affinity hw, affinity hv, explicitly hw, explicitly hv, collation hw,
    collation hv]

/-- No call is resolved of a name that no function and no aggregate has. -/
theorem not_resolves_call {f : String} {ts : List NamedTerm} (hf : Function.named f = [])
    (ha : Aggregate.ofName? f = none) : ¬(Term.call f ts).resolve source false = .ok w := by
  intro h
  rw [resolve] at h
  obtain ⟨us, -, h⟩ := except_bind_ok.1 h
  obtain ⟨_, hcheck, -⟩ := except_bind_ok.1 h
  have hfind : Function.find? f us.length = none := by rw [Function.find?, hf]; rfl
  simp [checkCall, hfind, ha, hf] at hcheck

end Term

/-- A phrase is resolved alike at two places where its parameters are bound alike. -/
theorem Phrase.bound_of_resolves {p : Phrase} {ps qs : List Datum} {m n : Nat}
    {source : Option Table} {w v : Term CellRef} (h : BoundAlike ps qs m n p.holes)
    (hw : (p.term m).resolve source false = .ok w) (hv : (p.term n).resolve source false = .ok v) :
    w.bound ps = v.bound qs := by
  have hps : ((p.term m).bound ps).resolve source false = .ok (w.bound ps) := by
    rw [Term.resolve_bound, hw]
    rfl
  have hqs : ((p.term n).bound qs).resolve source false = .ok (v.bound qs) := by
    rw [Term.resolve_bound, hv]
    rfl
  rw [Phrase.bound_term p h] at hps
  exact Except.ok.inj (hps.symm.trans hqs)

/-- How the values of two conditions stand to each other, brought together as the two terms are by a
comparison. -/
def Condition.compared (a b : Condition) (source : Option Table) (r : Option StoredRow) :
    Except Fault Ordering := do
  let w ← (← a.read).resolve source false
  let v ← (← b.read).resolve source false
  return Datum.compared (Term.comparing w v)
    (← w.eval (bindings a.params) r) (← v.eval (bindings b.params) r)

theorem BinaryOp.IsComparison.strength {op : BinaryOp} (hop : op.IsComparison) :
    4 ≤ op.operator.strength := by
  rcases BinaryOp.isComparison_iff.1 hop with rfl | rfl | rfl | rfl | rfl | rfl <;> decide

/-- An operator between two phrases of which the first is no negation. -/
theorem Phrase.term_comparison {op : BinaryOp} (hop : op.IsComparison) {p : Phrase}
    (hp : p.regrouped.isNot = false) (q : Phrase) :
    (ofBinary op p q false false).regrouped.term 0 =
      .binary op.operator (p.regrouped.term 0) (q.regrouped.term p.regrouped.holes) := by
  have hregrouped : (ofBinary op p q false false).regrouped =
      paren (binary op.operator p.regrouped q.regrouped) := by
    change paren (if 4 ≤ op.operator.strength then _ else _) = _
    rw [if_pos hop.strength, taken_of_isNot hp]
  rw [hregrouped, term, term, Nat.zero_add]

namespace Compile

variable {t : Mapping} {a b e : Expr} {f fa fb : Fragment} {op : BinaryOp} {x y : String}
  {source : Option Table} {r : Option StoredRow}

/-! What is worth a text is no null, and no three-way comparison, which the database has none of. -/

theorem isNullParameter_of_worth (he : e.Built) (hn : e.Callable) (hf : Compiles t .sqlite e f)
    (hx : Condition.worth ⟨f.sql, f.params⟩ source r = .ok (.text x)) :
    e.isNullParameter = false := by
  by_contra hnull
  rw [Bool.not_eq_false, Expr.isNullParameter, Bool.and_eq_true, beq_iff_eq] at hnull
  obtain ⟨hparam, hcarried⟩ := hnull
  obtain ⟨v, name, z, hv, hz, rfl⟩ := hf.parameter hparam
  cases hcarried.symm.trans hv
  cases hz
  rw [hf.worth he hn, Expr.phrase_of_isParameter t hparam] at hx
  cases hx

theorem readAs?_of_worth (ha : a.Built) (hn : a.opened.Callable)
    (hf : Compiles t .sqlite a.opened f)
    (hx : Condition.worth ⟨f.sql, f.params⟩ source r = .ok (.text x)) :
    (Expr.binary op a b).readAs? = none := by
  cases h : (Expr.binary op a b).readAs? with
  | none => rfl
  | some e' =>
    obtain ⟨op', c, d, z, rest, heq, -⟩ := Expr.eq_of_readAs? h
    cases heq
    rw [hf.worth ha.opened hn] at hx
    obtain ⟨w, hw⟩ := Term.worth_ok_iff.1 hx
    have hnamed : Function.named "comparestring" = [] := by decide
    have hgathers : Aggregate.ofName? "comparestring" = none := by decide
    exact absurd hw.resolves (Term.not_resolves_call hnamed hgathers)

/-- Neither operand is null, so both are bound in their order. -/
theorem Compiles.operator (ha : a.isNullParameter = false) (hb : b.isNullParameter = false)
    (h : Compiles t .sqlite (.binary op a b) f) :
    ∃ ga gb, Compiles t .sqlite a ga ∧ Compiles t .sqlite b gb ∧
      bindings f.params = bindings ga.params ++ bindings gb.params := by
  obtain ⟨ga, gb, hga, hgb, hf⟩ := h.binary
  obtain ⟨hnull, -⟩ | ⟨-, hnull, -⟩ | ⟨-, -, token, -, rfl⟩ := comparison_ok hf
  · rw [hga.isNullParam, ha] at hnull
    cases hnull
  · rw [hgb.isNullParam, hb] at hnull
    cases hnull
  · exact ⟨ga, gb, hga, hgb, List.map_append⟩

section Comparison

variable (ha : a.Built) (hb : b.Built) (hna : a.Callable) (hnb : b.Callable)
  (hfa : Compiles t .sqlite a fa) (hfb : Compiles t .sqlite b fb)
  (hx : Condition.worth ⟨fa.sql, fa.params⟩ source r = .ok (.text x))
  (hy : Condition.worth ⟨fb.sql, fb.params⟩ source r = .ok (.text y))

include ha hb hna hnb hfa hfb hx hy

theorem compilable_comparison (hop : op.IsComparison) : Compilable t (.binary op a b) := by
  have harithmetic : ¬op.IsArithmetic := by
    rcases BinaryOp.isComparison_iff.1 hop with rfl | rfl | rfl | rfl | rfl | rfl <;> decide
  rw [compilable_binary, Expr.OperatorFits, isNullParameter_of_worth ha hna hfa hx,
    isNullParameter_of_worth hb hnb hfb hy]
  exact ⟨harithmetic, hfa.compilable, hfb.compilable⟩

/-- The operands have one order, and every comparison of them asks for it. -/
theorem exists_compared :
    ∃ o, Condition.compared ⟨fa.sql, fa.params⟩ ⟨fb.sql, fb.params⟩ source r = .ok o ∧
      ∀ op, op.IsComparison → ∀ f, Compiles t .sqlite (.binary op a b) f →
        Condition.worth ⟨f.sql, f.params⟩ source r =
          .ok (.ofBool (op.Relates (threeWay o) 0)) := by
  obtain ⟨w, hw⟩ := Term.worth_ok_iff.1 ((hfa.worth ha hna source r).symm.trans hx)
  obtain ⟨v, hv⟩ := Term.worth_ok_iff.1 ((hfb.worth hb hnb source r).symm.trans hy)
  refine ⟨Datum.compared (Term.comparing w v) (.text x) (.text y), ?_, fun op hop f hf => ?_⟩
  · simp only [Condition.compared, hfa.read ha hna, hfb.read hb hnb, bind, Except.bind,
      hw.resolves, hv.resolves, hw.value, hv.value]
    rfl
  · have hnulla := isNullParameter_of_worth ha hna hfa hx
    have hnullb := isNullParameter_of_worth hb hnb hfb hy
    have hnot : (a.phrase t).regrouped.isNot = false := isNot_of_yields hw
    obtain ⟨ga, gb, hga, hgb, hbindings⟩ := hf.operator hnulla hnullb
    -- both operands are bound in one list, the second after the first
    obtain ⟨w', hw'⟩ := hfa.yields ha hna hga hx [] (bindings gb.params)
    obtain ⟨v', hv'⟩ := hfb.yields hb hnb hgb hy (bindings ga.params) []
    rw [List.nil_append] at hw'
    rw [List.append_nil] at hv'
    have halike : BoundAlike (bindings ga.params ++ bindings gb.params) (bindings fb.params)
        (bindings ga.params).length 0 (b.phrase t).regrouped.holes := by
      rw [← hgb.bindings_eq hb hfb, ← hgb.length_bindings hb]
      simpa using BoundAlike.append (bindings ga.params) (bindings gb.params) []
    have hcomparing : Term.comparing w' v' = Term.comparing w v := by
      have hsame : w' = w := Except.ok.inj (hw'.resolves.symm.trans hw.resolves)
      have hbound := Phrase.bound_of_resolves halike hv'.resolves hv.resolves
      rw [hsame]
      exact Term.comparing_of_bound (rfl : w.bound [] = w.bound []) hbound
    have hvalue := Term.worth_ok_iff.2 ⟨_, hw'.binary op.operator hop.strength hv'⟩
    rw [hcomparing, Operator.apply_comparison hop, hga.length_bindings ha] at hvalue
    rw [hf.worth (.binary op ha hb) ⟨hna, hnb⟩, Expr.phrase, hnulla, hnullb,
      Phrase.term_comparison hop hnot, hbindings]
    exact hvalue

end Comparison

end Compile

/-- A comparison of a three-way comparison is that of the two texts themselves, and so is true
exactly if the three-way result compares so with zero, whichever number it was written with. That
is right for every result only if the number is zero. -/
theorem compareString_holds {t : Mapping} {a b : Expr} {ca cb : Condition} {source : Option Table}
    {r : Option StoredRow} {x y : String} (ha : a.Built) (hb : b.Built)
    (hna : a.opened.Callable) (hnb : b.opened.Callable)
    (hca : compile a t .sqlite = .ok ca) (hcb : compile b t .sqlite = .ok cb)
    (hx : ca.worth source r = .ok (.text x)) (hy : cb.worth source r = .ok (.text y))
    (asText : Bool) {w : Width} (k : Sized w) :
    ∃ o, ca.compared cb source r = .ok o ∧ ∀ op : BinaryOp, op.IsComparison →
      (∀ d, compile (.binary op (.compareString a b asText) (.constant (.int k))) t d =
        compile (.binary op a b) t d) ∧
      (∃ c, compile (.binary op (.compareString a b asText) (.constant (.int k))) t .sqlite =
          .ok c ∧
        c.holds source r = .ok (decide (op.Relates (threeWay o) 0))) ∧
      ((∀ o', op.Relates (threeWay o') k.val ↔ op.Relates (threeWay o') 0) ↔ k.val = 0) := by
  obtain ⟨fa, hfa, rfl⟩ := Compile.compiles_of_compile hca
  obtain ⟨fb, hfb, rfl⟩ := Compile.compiles_of_compile hcb
  obtain ⟨o, ho, hworth⟩ := Compile.exists_compared ha.opened hb.opened hna hnb hfa hfb hx hy
  refine ⟨o, ho, fun op hop => ?_⟩
  have hread (d : Dialect) :
      compile (.binary op (.compareString a b asText) (.constant (.int k))) t d =
        compile (.binary op a b) t d := by
    rw [compile, compile, Expr.opened_of_readAs? rfl]
  refine ⟨hread, ?_, BinaryOp.relates_threeWay_iff hop k.val⟩
  have hopened : (Expr.binary op a b).opened = .binary op a.opened b.opened :=
    Expr.opened_binary (Compile.readAs?_of_worth ha hna hfa hx)
  have hok := Compile.compilable_comparison ha.opened hb.opened hna hnb hfa hfb hx hy hop
  rw [← hopened] at hok
  obtain ⟨c, hc⟩ := (Compile.exists_compile_iff .sqlite).2 hok
  obtain ⟨f, hf, rfl⟩ := Compile.compiles_of_compile hc
  refine ⟨_, (hread .sqlite).trans hc, ?_⟩
  rw [Compile.holds_of_worth (hworth op hop f (hopened ▸ hf)), Datum.truth?_ofBool]
  cases decide (op.Relates (threeWay o) 0) <;> rfl

namespace Samples

/-- Two equal texts compare as zero, and are said to compare as one. -/
theorem bob_comparedToOne :
    let text : Condition := ⟨[.name "Text"], []⟩
    let bob : Condition := ⟨[.hole "p"], [⟨"p", .text "Bob"⟩]⟩
    text.compared bob (some noteTable) (some (noteRow "Bob")) = .ok .eq ∧
      ∃ c, compile (.binary .eq
          (.compareString (.column "text") (.constant (.text "Bob")) false) (number 1)) notes
          .sqlite = .ok c ∧
        c.holds (some noteTable) (some (noteRow "Bob")) = .ok true := by
  intro text bob
  have htext : compile (.column "text") notes .sqlite = .ok text := rfl
  have hbob : compile (.constant (.text "Bob")) notes .sqlite = .ok bob := rfl
  obtain ⟨f, hf, hcf⟩ := Compile.compiles_of_compile htext
  obtain ⟨g, hg, hcg⟩ := Compile.compiles_of_compile hbob
  have hreadText : text.read = .ok (.column { name := "Text", maybeText := true }) :=
    hcf ▸ hf.read (.column _) trivial
  have hreadBob : bob.read = .ok (.parameter 1) := hcg ▸ hg.read (.constant _) trivial
  have hx : text.worth (some noteTable) (some (noteRow "Bob")) = .ok (.text "Bob") := by
    rw [Condition.worth, hreadText]
    rfl
  have hy : bob.worth (some noteTable) (some (noteRow "Bob")) = .ok (.text "Bob") := by
    rw [Condition.worth, hreadBob]
    rfl
  obtain ⟨o, ho, hall⟩ :=
    compareString_holds (.column _) (.constant _) trivial trivial htext hbob hx hy false
      (Sized.clamp .i32 1)
  obtain ⟨-, ⟨c, hc, hholds⟩, -⟩ := hall .eq (by decide)
  have horder : text.compared bob (some noteTable) (some (noteRow "Bob")) = .ok .eq := by
    rw [Condition.compared, hreadText, hreadBob]
    rfl
  cases horder.symm.trans ho
  exact ⟨horder, c, hc, hholds⟩

end Samples

end RowLedger
