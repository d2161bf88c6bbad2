import Mathlib.Data.List.Induction
import RowLedger.Proofs.Predicate.Acceptance

/-!
A constant under conversions. It is one parameter, and three things follow the conversions from one
to the next: the value that the parameter carries, what is bound to it, and, where it is looked for
at an end of a text, its length.
-/

namespace RowLedger

/-- The value converted to each kind in turn. -/
def Value.through (v : Value) (ks : List Kind) : Except Error Value := ks.foldlM Value.convert v

/-- The expression under conversions, the first of which is the innermost. -/
def Expr.through (e : Expr) (ks : List Kind) : Expr := ks.foldl Expr.convert e

namespace Value

variable {v : Value}

theorem through_concat (v : Value) (ks : List Kind) (k : Kind) :
    v.through (ks ++ [k]) = v.through ks >>= fun w => w.convert k := by
  rw [through, List.foldlM_append, through]
  simp only [List.foldlM_cons, List.foldlM_nil, bind_pure]

theorem convert_null (k : Kind) : null.convert k = .ok null := rfl

theorem through_null (ks : List Kind) : null.through ks = .ok null := by
  induction ks with
  | nil => rfl
  | cons k ks ih =>
    rw [through, List.foldlM_cons, convert_null]
    exact ih

/-- A value is stored before it is read as another kind. -/
theorem convert_error {k : Kind} {err : Error} (h : v.toSql = .error err) :
    v.convert k = .error err := by
  have hnull : v.isNull = false := by
    cases v with
    | null => cases h
    | _ => rfl
  rw [convert, hnull, if_neg Bool.false_ne_true, h]
  rfl

end Value

namespace Expr

theorem through_concat (e : Expr) (ks : List Kind) (k : Kind) :
    e.through (ks ++ [k]) = (e.through ks).convert k := List.foldl_concat ..

theorem opened_through (v : Value) (ks : List Kind) :
    ((constant v).through ks).opened = (constant v).through ks := by
  induction ks using List.reverseRecOn with
  | nil => rfl
  | append_singleton ks k ih => rw [through_concat, opened, ih]

theorem isParameter_through (v : Value) (ks : List Kind) :
    ((constant v).through ks).isParameter = true := by
  induction ks using List.reverseRecOn with
  | nil => rfl
  | append_singleton ks k ih => rw [through_concat, isParameter, ih]

theorem carried?_through (v : Value) (ks : List Kind) :
    ((constant v).through ks).carried? = (v.through ks).toOption := by
  induction ks using List.reverseRecOn with
  | nil => rfl
  | append_singleton ks k ih =>
    rw [through_concat, carried?, ih, Value.through_concat]
    cases v.through ks <;> rfl

theorem isNullParameter_through (ks : List Kind) :
    ((constant .null).through ks).isNullParameter = true := by
  rw [isNullParameter, isParameter_through, carried?_through, Value.through_null]
  rfl

end Expr

namespace Compile

variable {t : Mapping} {d : Dialect} {f : Fragment} {v : Value} {ks : List Kind}

/-- A mark that carries a value, with what is bound to it. -/
def marked (name : String) (v : Value) (x : SqlValue) : Fragment where
  sql := [.hole name]
  params := [⟨name, x⟩]
  value := some v
  isParam := true

theorem conversion_marked (name : String) (v : Value) (x : SqlValue) (k : Kind) :
    conversion (marked name v x) k = do
      let w ← v.convert k
      let y ← w.toSql
      return marked name w y := rfl

/-- The name is drawn for the constant, and kept; what is carried and what is bound are those of
the last conversion. -/
theorem fragment_through (hint : String) (v : Value) (ks : List Kind) (s : Drawn) :
    fragment t d hint ((Expr.constant v).through ks) s = do
      let w ← v.through ks
      let x ← w.toSql
      return (marked (drawName hint s).1 w x, (drawName hint s).2) := by
  induction ks using List.reverseRecOn with
  | nil =>
    change fragment t d hint (.constant v) s = v.toSql >>= _
    rw [fragment, constant]
    simp only [draw, bind, StateT.bind, Except.bind]
    cases v.toSql <;> rfl
  | append_singleton ks k ih =>
    have hstep : fragment t d hint ((Expr.constant v).through (ks ++ [k])) s =
        fragment t d hint ((Expr.constant v).through ks) s >>= fun p => do
          return (← conversion p.1 k, p.2) := by
      rw [Expr.through_concat, fragment]
      rfl
    rw [hstep, ih, Value.through_concat]
    cases v.through ks with
    | error err => rfl
    | ok u =>
      cases hx : u.toSql with
      | error err =>
        -- what cannot be stored cannot be converted either
        simp only [bind, Except.bind, hx, Value.convert_error hx]
      | ok x =>
        simp only [bind, Except.bind, hx, pure, Except.pure, conversion_marked]
        cases u.convert k with
        | error err => rfl
        | ok w => cases hy : w.toSql <;> simp [hy]

theorem Compiles.through (h : Compiles t d ((Expr.constant v).through ks) f) :
    ∃ name w x, v.through ks = .ok w ∧ w.toSql = .ok x ∧ f = marked name w x := by
  obtain ⟨hint, s, s', h⟩ := h
  rw [fragment_through] at h
  obtain ⟨w, hw, h⟩ := except_bind_ok.1 h
  obtain ⟨x, hx, h⟩ := except_bind_ok.1 h
  cases h
  exact ⟨_, w, x, hw, hx, rfl⟩

theorem compilable_through :
    Compilable t ((Expr.constant v).through ks) ↔
      ∃ w x, v.through ks = .ok w ∧ w.toSql = .ok x := by
  constructor
  · intro h
    obtain ⟨f, hf⟩ := h.compiles .sqlite
    obtain ⟨-, w, x, hw, hx, -⟩ := hf.through
    exact ⟨w, x, hw, hx⟩
  · rintro ⟨w, x, hw, hx⟩ d hint s
    rw [fragment_through, hw]
    exact ⟨_, except_bind_ok.2 ⟨w, rfl, except_bind_ok.2 ⟨x, hx, rfl⟩⟩⟩

theorem compile_constant_through (t : Mapping) (d : Dialect) (v : Value) (ks : List Kind) :
    compile ((Expr.constant v).through ks) t d = do
      let w ← v.through ks
      let x ← w.toSql
      return ⟨[.hole "p"], [⟨"p", x⟩]⟩ := by
  rw [compile, Expr.opened_through]
  change fragment t d "" ((Expr.constant v).through ks) [] >>= _ = _
  rw [fragment_through]
  simp only [bind_assoc, pure_bind]
  rfl

/-! Compared with another operand, on either side. -/

section Null

variable {op : BinaryOp} {keyword : String} {e side : Expr}

theorem Compiles.nullThrough (h : Compiles t d ((Expr.constant .null).through ks) f) :
    ∃ p, f = marked p .null .null := by
  obtain ⟨p, w, x, hw, hx, rfl⟩ := h.through
  cases (Value.through_null ks).symm.trans hw
  cases hx
  exact ⟨p, rfl⟩

theorem compilable_nullThrough : Compilable t ((Expr.constant .null).through ks) :=
  compilable_through.2 ⟨.null, .null, Value.through_null ks, rfl⟩

/-- Where one of the operands is null, it is the second of the comparison that is made. -/
theorem comparison_null {fe fn : Fragment} (hop : op.nullKeyword? = some keyword)
    (he : fe.isNullParam = false) (hn : fn.isNullParam = true) :
    comparison d op fe fn = .ok (nullFragment d keyword fe fn) ∧
      comparison d op fn fe = .ok (nullFragment d keyword fe fn) := by
  have hnull := nullComparison_eq (d := d) op fe fn
  rw [hop] at hnull
  exact ⟨by rw [comparison, he, if_neg Bool.false_ne_true, hn, if_pos rfl, hnull],
    by rw [comparison, hn, if_pos rfl, hnull]⟩

variable (hop : op.nullKeyword? = some keyword)
  (hside : side = .binary op e ((Expr.constant .null).through ks) ∨
    side = .binary op ((Expr.constant .null).through ks) e)

include hop hside

theorem compilable_nullComparison : Compilable t side ↔ Compilable t e := by
  have hcomparison : op.IsComparison := nullKeyword?_isSome.1 (by rw [hop]; rfl)
  rcases hside with rfl | rfl <;>
    simp [compilable_binary, Expr.OperatorFits, Expr.isNullParameter_through, hcomparison,
      compilable_nullThrough]

theorem Compiles.nullComparison (he : e.isNullParameter = false) (h : Compiles t d side f) :
    ∃ fe p, Compiles t d e fe ∧ f = nullFragment d keyword fe (marked p .null .null) := by
  rcases hside with rfl | rfl
  · obtain ⟨fe, fn, hfe, hfn, hf⟩ := h.binary
    obtain ⟨p, rfl⟩ := hfn.nullThrough
    have hplain := hfe.isNullParam.trans he
    cases (comparison_null hop hplain rfl).1.symm.trans hf
    exact ⟨fe, p, hfe, rfl⟩
  · obtain ⟨fn, fe, hfn, hfe, hf⟩ := h.binary
    obtain ⟨p, rfl⟩ := hfn.nullThrough
    have hplain := hfe.isNullParam.trans he
    cases (comparison_null hop hplain rfl).2.symm.trans hf
    exact ⟨fe, p, hfe, rfl⟩

end Null

/-! Looked for at an end of a text. -/

section Ends

variable {m : Method} {e : Expr} {modes : List Expr}

/-- An exact test at the end that the method is about. -/
def sliceTest (m : Method) (d : Dialect) (r arg : Fragment) (n : Nat) : Fragment :=
  if m = .startsWith then startSlice d r arg n else endSlice d r arg n

theorem valuesOf_of_heedsCase {a : Expr} (h : Expr.HeedsCase m (a :: modes)) :
    Expr.valuesOf m (a :: modes) = [a] := by
  obtain ⟨hm, c, hc, -⟩ := h
  match modes with
  | [] => rfl
  | [b] => exact if_pos hm
  | _ :: _ :: _ => simp [Expr.testMode?, Expr.secondConstant?] at hc

theorem applied_sliceTest (hm : m.TestsEnd) {mode : Option Comparison} {overList : Bool}
    {r arg : Fragment} {text : String} (hcase : (mode.getD .currentCulture).ignoresCase = false)
    (harg : arg.value = some (.text text))
    (h : applied d m mode overList (some r) [arg] = .ok f) :
    f = sliceTest m d r arg text.length := by
  rcases hm with rfl | rfl
  · obtain ⟨hc, -⟩ | ⟨-, text', htext, rfl⟩ := Compiles.startsWith_ok h
    · cases hc.symm.trans hcase
    · cases harg.symm.trans htext
      rfl
  · obtain ⟨hc, -⟩ | ⟨-, text', htext, rfl⟩ := Compiles.endsWith_ok h
    · cases hc.symm.trans hcase
    · cases harg.symm.trans htext
      rfl

theorem compilable_sliceTest
    (h : Expr.HeedsCase m ((Expr.constant v).through ks :: modes)) :
    Compilable t (.call m (some e) ((Expr.constant v).through ks :: modes)) ↔
      Compilable t e ∧ ∃ text, v.through ks = .ok (.text text) := by
  have hvalues := valuesOf_of_heedsCase h
  rw [compilable_call, hvalues, Option.toList_some, List.forall_mem_append,
    List.forall_mem_singleton, List.forall_mem_singleton]
  obtain ⟨hm, c, hc, hcase⟩ := h
  constructor
  · rintro ⟨hfits, he, -⟩
    obtain ⟨text, htext⟩ := hfits.text hm _ c hvalues hc hcase
    refine ⟨he, text, ?_⟩
    rw [Expr.carried?_through] at htext
    cases hw : v.through ks with
    | error err => simp [hw, Except.toOption] at htext
    | ok w => simpa [hw, Except.toOption] using htext
  · rintro ⟨he, text, htext⟩
    have hchain : Compilable t ((Expr.constant v).through ks) :=
      compilable_through.2 ⟨.text text, .text text, htext, rfl⟩
    refine ⟨⟨fun _ => rfl, fun _ _ => ⟨c, hc⟩, fun _ a _ ha _ _ => ?_⟩, he, hchain⟩
    rw [hvalues] at ha
    cases ha
    exact ⟨text, by rw [Expr.carried?_through, htext]; rfl⟩

theorem Compiles.sliceTest
    (h : Expr.HeedsCase m ((Expr.constant v).through ks :: modes))
    (hf : Compiles t d (.call m (some e) ((Expr.constant v).through ks :: modes)) f) :
    ∃ fe name text, Compiles t d e fe ∧ v.through ks = .ok (.text text) ∧
      f = Compile.sliceTest m d fe (marked name (.text text) (.text text)) text.length := by
  obtain ⟨-, text, htext⟩ := (compilable_sliceTest h).1 hf.compilable
  obtain ⟨g, mode, fs, hr, hmode, hfs, hf⟩ := hf.call
  rw [take_of_modeOf? hmode, valuesOf_of_heedsCase h] at hfs
  obtain _ | @⟨_, fe, he⟩ := hr
  obtain _ | @⟨_, fa, _, _, ha, hrest⟩ := hfs
  cases hrest
  obtain ⟨name, w, x, hw, hx, rfl⟩ := ha.through
  cases hw.symm.trans htext
  cases hx
  refine ⟨fe, name, text, he, htext, ?_⟩
  obtain ⟨hm, c, hc, hcase⟩ := h
  have hmodes := testMode?_of_modeOf? hm hmode (valuesOf_of_heedsCase ⟨hm, c, hc, hcase⟩)
  cases hc.symm.trans hmodes
  exact applied_sliceTest hm hcase rfl hf

end Ends

/-- How a constant under conversions is compiled, on its own and below other nodes. -/
structure FollowsConversions (t : Mapping) (d : Dialect) (v : Value) (ks : List Kind) : Prop where
  /-- One parameter is bound to what is stored of the value in the end. -/
  alone : compile ((Expr.constant v).through ks) t d = do
    let w ← v.through ks
    let x ← w.toSql
    return ⟨[.hole "p"], [⟨"p", x⟩]⟩
  /-- The fragment carries the value of which that is stored. -/
  below : ∀ hint s, fragment t d hint ((Expr.constant v).through ks) s = do
    let w ← v.through ks
    let x ← w.toSql
    return (marked (drawName hint s).1 w x, (drawName hint s).2)
  null : v = .null →
    compile ((Expr.constant v).through ks) t d = .ok ⟨[.hole "p"], [⟨"p", .null⟩]⟩
  /-- Next to a column, or what is no null itself, it is the null of a comparison on either side. -/
  nullComparison : v = .null → ∀ op keyword e side, op.nullKeyword? = some keyword →
    side = .binary op e ((Expr.constant v).through ks) ∨
      side = .binary op ((Expr.constant v).through ks) e →
    (Compilable t side ↔ Compilable t e) ∧
      (e.isNullParameter = false → ∀ f, Compiles t d side f → ∃ fe p, Compiles t d e fe ∧
        f = nullFragment d keyword fe (marked p .null .null))
  /-- A test that heeds case takes a slice of the length of the text that is bound. -/
  sliceTest : ∀ m e modes, Expr.HeedsCase m ((Expr.constant v).through ks :: modes) →
    (Compilable t (.call m (some e) ((Expr.constant v).through ks :: modes)) ↔
      Compilable t e ∧ ∃ text, v.through ks = .ok (.text text)) ∧
    ∀ f, Compiles t d (.call m (some e) ((Expr.constant v).through ks :: modes)) f →
      ∃ fe name text, Compiles t d e fe ∧ v.through ks = .ok (.text text) ∧
        f = sliceTest m d fe (marked name (.text text) (.text text)) text.length

end Compile

end RowLedger
