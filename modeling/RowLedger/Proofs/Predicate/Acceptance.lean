import RowLedger.Proofs.Predicate.Calls
import RowLedger.Proofs.Predicate.Dialects
import RowLedger.Proofs.Predicate.Visiting

/-!
The predicates that compile. Each node that is visited has a condition of its own, which looks at
the node and at the values that its parts carry; that all of them are met is necessary and enough.
Hints, earlier draws and the dialect have no say.
-/

namespace RowLedger

def BinaryOp.IsComparison (op : BinaryOp) : Prop := op ∈ [eq, ne, lt, le, gt, ge]

def BinaryOp.IsArithmetic (op : BinaryOp) : Prop := op ∈ [add, subtract, multiply, divide]

instance (op : BinaryOp) : Decidable op.IsComparison := inferInstanceAs (Decidable (_ ∈ _))

instance (op : BinaryOp) : Decidable op.IsArithmetic := inferInstanceAs (Decidable (_ ∈ _))

/-- Can the method be called with that many arguments on a receiver only? -/
def Method.needsReceiver : Method → Nat → Bool
  | toLower, 0 | toUpper, 0 | contains, 1 | startsWith, 1 | endsWith, 1 | equals, 1
  | replace, 2 => true
  | _, _ => false

namespace Expr

/-- The operator fits its operands: with a null it has to be a comparison. -/
def OperatorFits (op : BinaryOp) (a b : Expr) : Prop :=
  if a.isNullParameter || b.isNullParameter then op.IsComparison else ¬op.IsArithmetic

/-- A carried value can be converted, and that of a parameter also stored. -/
def ConversionFits (e : Expr) (k : Kind) : Prop :=
  ∀ v, e.carried? = some v → ∃ w, v.convert k = .ok w ∧
    (e.isParameter = true → ∃ x, w.toSql = .ok x)

/-- The call has the receiver that it needs. A prefix or suffix test has a mode that exists, and
carries a text to look for unless the mode ignores case. -/
structure CallFits (m : Method) (r : Option Expr) (as : List Expr) : Prop where
  receiver : m.needsReceiver (valuesOf m as).length = true → r.isSome = true
  mode : m.TestsEnd → as.length = 2 → ∃ c, testMode? as = some c
  text : m.TestsEnd → ∀ a c, valuesOf m as = [a] → testMode? as = some c → c.ignoresCase = false →
    ∃ s, a.carried? = some (.text s)

/-- What is asked of a node, apart from its parts. -/
def Fits (t : Mapping) : Expr → Prop
  | column name => ∃ c, t.resolve name = .ok c
  | constant v => ∃ x, v.toSql = .ok x
  | collection vs => ∀ v ∈ vs, ∃ x, v.toSql = .ok x
  | binary op a b => OperatorFits op a b
  | not _ => True
  | call m r as => CallFits m r as
  | convert e k => ConversionFits e k
  | conditional _ _ _ => False

end Expr

namespace Compile

variable {t : Mapping} {d : Dialect} {f g : Fragment} {op : BinaryOp} {a b e : Expr}

/-! The functions of the nodes: when each of them succeeds. -/

theorem nullKeyword?_isSome : op.nullKeyword?.isSome = true ↔ op.IsComparison := by
  cases op <;> decide

theorem token?_isSome : op.token?.isSome = true ↔ ¬op.IsArithmetic := by
  cases op <;> decide

theorem nullComparison_ok_iff :
    (∃ h, nullComparison d op f g = .ok h) ↔ op.IsComparison := by
  rw [← nullKeyword?_isSome, nullComparison_eq]
  cases op.nullKeyword? <;> simp

theorem comparison_ok_iff :
    (∃ h, comparison d op f g = .ok h) ↔
      if f.isNullParam || g.isNullParam then op.IsComparison else ¬op.IsArithmetic := by
  unfold comparison
  cases f.isNullParam with
  | true => simp [nullComparison_ok_iff]
  | false =>
    cases g.isNullParam with
    | true => simp [nullComparison_ok_iff]
    | false =>
      simp only [Bool.false_eq_true, if_false, Bool.or_self, ← token?_isSome]
      cases op.token? <;> simp

theorem conversion_ok_iff {k : Kind} :
    (∃ h, conversion f k = .ok h) ↔ ∀ v, f.value = some v → ∃ w, v.convert k = .ok w ∧
      (f.isParam = true → ∃ x, w.toSql = .ok x) := by
  unfold conversion
  cases f.value with
  | none => simp
  | some v =>
    simp only [except_bind_ok, Option.some.injEq, forall_eq']
    constructor
    · rintro ⟨h, w, hw, hh⟩
      refine ⟨w, hw, fun hp => ?_⟩
      rw [if_pos hp] at hh
      obtain ⟨x, hx, -⟩ := except_bind_ok.1 hh
      exact ⟨x, hx⟩
    · rintro ⟨w, hw, hstored⟩
      cases hp : f.isParam with
      | true =>
        obtain ⟨x, hx⟩ := hstored hp
        exact ⟨_, w, hw, by rw [if_pos rfl, hx]; rfl⟩
      | false => exact ⟨_, w, hw, by rw [if_neg Bool.false_ne_true]; rfl⟩

theorem carriedLength_ok_iff {m : Method} :
    (∃ n, carriedLength m f = .ok n) ↔ ∃ s, f.value = some (.text s) := by
  unfold carriedLength
  split
  · next s hs => simp [hs]
  · next hs => simpa using hs

theorem elements_ok_iff {hint : String} {s : Drawn} {vs : List Value} :
    (∃ r, elements hint vs s = .ok r) ↔ ∀ v ∈ vs, ∃ x, v.toSql = .ok x := by
  induction vs generalizing s with
  | nil => simp [elements, pure_ok]
  | cons v vs ih =>
    rw [List.forall_mem_cons]
    simp only [elements, bind_ok, pure_ok, lift_ok]
    constructor
    · rintro ⟨r, name, s₁, -, x, s₂, ⟨hx, rfl⟩, ps, s₃, hps, -⟩
      exact ⟨⟨x, hx⟩, ih.1 ⟨_, hps⟩⟩
    · rintro ⟨⟨x, hx⟩, hvs⟩
      obtain ⟨⟨ps, s₃⟩, hps⟩ := ih.2 hvs
      exact ⟨_, _, _, rfl, x, _, ⟨hx, rfl⟩, ps, s₃, hps, rfl⟩

theorem measured_ok_iff {ignores : Bool} {m : Method} {x : Fragment} {y : Nat → Fragment} :
    (∃ h, (if ignores = true then Except.ok x else carriedLength m f >>= fun n => .ok (y n)) =
      .ok h) ↔ (ignores = false → ∃ s, f.value = some (.text s)) := by
  cases ignores with
  | true => simp
  | false =>
    rw [← carriedLength_ok_iff (m := m)]
    simp only [Bool.false_eq_true, if_false, except_bind_ok, forall_const]
    exact ⟨fun ⟨_, n, hn, _⟩ => ⟨n, hn⟩, fun ⟨n, hn⟩ => ⟨_, n, hn, rfl⟩⟩

/-- A call needs its receiver, and a test that heeds case the text that it looks for. -/
theorem applied_ok_iff {m : Method} {mode : Option Comparison} {overList : Bool}
    {r : Option Fragment} {fs : List Fragment} :
    (∃ h, applied d m mode overList r fs = .ok h) ↔
      (m.needsReceiver fs.length = true → r.isSome = true) ∧
      (m.TestsEnd → ∀ g, fs = [g] → (mode.getD .currentCulture).ignoresCase = false →
        ∃ s, g.value = some (.text s)) := by
  -- every method but the tests fails for want of a receiver only, if it does
  cases m with
  | startsWith | endsWith =>
    rcases fs with _ | ⟨g, _ | ⟨g', fs⟩⟩
    · simp [applied, Method.needsReceiver]
    · cases r with
      | none => simp [applied, Method.needsReceiver, bind, Except.bind]
      | some r =>
        simp only [Method.TestsEnd, List.cons.injEq, and_true, Option.isSome_some, implies_true,
          true_and, true_or, or_true, forall_const, forall_eq']
        exact measured_ok_iff
    · simp [applied, Method.needsReceiver]
  | contains =>
    rcases fs with _ | ⟨g, _ | ⟨g', _ | ⟨g'', fs⟩⟩⟩
    · simp [applied, Method.needsReceiver, Method.TestsEnd]
    · cases r with
      | none => simp [applied, Method.needsReceiver, bind, Except.bind]
      | some r =>
        cases overList <;> simp [applied, Method.TestsEnd, bind, Except.bind, pure, Except.pure]
    · simp [applied, Method.needsReceiver, Method.TestsEnd]
    · simp [applied, Method.needsReceiver, Method.TestsEnd]
  | equals | toLower | toUpper | replace =>
    rcases fs with _ | ⟨g, _ | ⟨g', _ | ⟨g'', fs⟩⟩⟩ <;> cases r <;>
      simp [applied, Method.needsReceiver, Method.TestsEnd, bind, Except.bind, pure, Except.pure]
  | like | isNullOrEmpty | compareString | other =>
    rcases fs with _ | ⟨g, _ | ⟨g', _ | ⟨g'', fs⟩⟩⟩ <;>
      simp [applied, Method.needsReceiver, Method.TestsEnd]

/-! The mode of a call. -/

section Mode

variable {m : Method} {mode : Option Comparison} {as : List Expr}

theorem modeOf?_two (hm : m.TestsEnd) :
    modeOf? m [a, b] = .ok mode ↔ ∃ c, Expr.testMode? [a, b] = some c ∧ mode = some c := by
  unfold modeOf?
  rw [Method.TestsEnd] at hm
  rw [if_pos hm]
  cases b with
  | constant v =>
    simp only [Expr.testMode?, Expr.secondConstant?, Option.bind_some]
    cases v.int?.bind fun n => Comparison.ofCode? n.val <;> simp [eq_comm]
  | _ => simp [Expr.testMode?, Expr.secondConstant?]

theorem modeOf?_other (h : ¬(m.TestsEnd ∧ as.length = 2)) : modeOf? m as = .ok none := by
  unfold modeOf?
  split
  · next hm =>
    split
    · exact absurd ⟨hm, rfl⟩ h
    · exact absurd ⟨hm, rfl⟩ h
    · rfl
  · rfl

/-- Only two arguments of a test can be without a mode. -/
theorem modeOf?_ok_iff :
    (∃ mode, modeOf? m as = .ok mode) ↔
      (m.TestsEnd → as.length = 2 → ∃ c, Expr.testMode? as = some c) := by
  by_cases h : m.TestsEnd ∧ as.length = 2
  · obtain ⟨hm, hlength⟩ := h
    obtain ⟨a, b, rfl⟩ := List.length_eq_two.1 hlength
    simp [modeOf?_two hm, hm]
  · rw [modeOf?_other h]
    exact iff_of_true ⟨_, rfl⟩ fun hm hlength => absurd ⟨hm, hlength⟩ h

/-- A call compiles the arguments that are not its mode. -/
theorem take_of_modeOf? (h : modeOf? m as = .ok mode) :
    as.take (if mode.isSome then 1 else as.length) = Expr.valuesOf m as := by
  by_cases htwo : m.TestsEnd ∧ as.length = 2
  · obtain ⟨hm, hlength⟩ := htwo
    obtain ⟨a, b, rfl⟩ := List.length_eq_two.1 hlength
    obtain ⟨c, -, rfl⟩ := (modeOf?_two hm).1 h
    rw [Expr.valuesOf, if_pos hm]
    rfl
  · rw [modeOf?_other htwo] at h
    cases h
    rw [Option.isSome_none, if_neg Bool.false_ne_true, List.take_length]
    unfold Expr.valuesOf
    split
    · rw [if_neg fun hm => htwo ⟨hm, rfl⟩]
    · rfl

theorem testMode?_of_modeOf? (hm : m.TestsEnd) (h : modeOf? m as = .ok mode)
    (hone : Expr.valuesOf m as = [a]) :
    Expr.testMode? as = some (mode.getD .currentCulture) := by
  unfold Expr.valuesOf at hone
  split at hone
  · obtain ⟨c, hc, rfl⟩ := (modeOf?_two hm).1 h
    exact hc
  · subst hone
    rw [Compiles.modeOf_one] at h
    cases h
    rfl

end Mode

/-- Compiled for each dialect, whatever the hint and the names drawn before. -/
def Compilable (t : Mapping) (e : Expr) : Prop :=
  ∀ d hint s, ∃ r, fragment t d hint e s = .ok r

theorem InStep.ok_iff {α β : Type} {R : α → β → Prop} {x : Except Error α} {y : Except Error β}
    (h : InStep R x y) : (∃ a, x = .ok a) ↔ ∃ b, y = .ok b := by
  cases x with
  | error e =>
    cases y with
    | error e' => simp
    | ok b => exact h.elim
  | ok a =>
    cases y with
    | error e' => exact h.elim
    | ok b => simp

/-- What is compiled once is compiled always: the dialects are in step with each other, so each of
them is with itself. -/
theorem compilable_of_ok {t : Mapping} {hint : String} {s : Drawn}
    (h : ∃ r, fragment t d hint e s = .ok r) : Compilable t e := by
  -- from one dialect to the other, and by way of the other back
  have step (hint hint' : String) (s s' : Drawn) :=
    (fragment_inStep t e hint hint' s s').ok_iff
  intro d' hint' s'
  cases d with
  | sqlite =>
    have hserver (hint' : String) (s' : Drawn) := (step hint hint' s s').1 h
    cases d' with
    | sqlite => exact (step hint' hint s' s).2 (hserver hint s)
    | sqlServer => exact hserver hint' s'
  | sqlServer =>
    have hlite (hint' : String) (s' : Drawn) := (step hint' hint s' s).2 h
    cases d' with
    | sqlite => exact hlite hint' s'
    | sqlServer => exact (step hint hint' s s').1 (hlite hint s)

theorem Compiles.compilable {t : Mapping} (h : Compiles t d e f) : Compilable t e := by
  obtain ⟨hint, s, s', h⟩ := h
  exact compilable_of_ok ⟨_, h⟩

theorem Compilable.compiles {t : Mapping} (h : Compilable t e) (d : Dialect) :
    ∃ f, Compiles t d e f := by
  obtain ⟨⟨f, s⟩, hf⟩ := h d "" []
  exact ⟨f, _, _, _, hf⟩

/-! The nodes: what each of them asks of itself and of its parts. -/

section Nodes

variable {t : Mapping} {m : Method} {k : Kind} {r : Option Expr} {as : List Expr}

theorem compilable_column {name : String} :
    Compilable t (.column name) ↔ (Expr.column name).Fits t := by
  constructor
  · intro h
    obtain ⟨f, hf⟩ := h.compiles .sqlite
    obtain ⟨c, hc, -⟩ := hf.column
    exact ⟨c, hc⟩
  · rintro ⟨c, hc⟩ d hint s
    simp only [fragment, bind_ok, pure_ok, lift_ok]
    exact ⟨_, c, s, ⟨hc, rfl⟩, rfl⟩

theorem compilable_constant {v : Value} :
    Compilable t (.constant v) ↔ (Expr.constant v).Fits t := by
  constructor
  · intro h
    obtain ⟨f, hf⟩ := h.compiles .sqlite
    obtain ⟨name, x, hx, -⟩ := hf.constant
    exact ⟨x, hx⟩
  · rintro ⟨x, hx⟩ d hint s
    simp only [fragment, Compile.constant, bind_ok, pure_ok, lift_ok]
    exact ⟨_, _, _, rfl, x, _, ⟨hx, rfl⟩, rfl⟩

theorem compilable_collection {vs : List Value} :
    Compilable t (.collection vs) ↔ (Expr.collection vs).Fits t := by
  constructor
  · intro h
    obtain ⟨f, hint, s, s', hf⟩ := h.compiles .sqlite
    simp only [fragment, Compile.collection, bind_ok] at hf
    obtain ⟨ps, s₁, hps, -⟩ := hf
    exact elements_ok_iff.1 ⟨_, hps⟩
  · intro h d hint s
    obtain ⟨⟨ps, s'⟩, hps⟩ := elements_ok_iff.2 h
    simp only [fragment, Compile.collection, bind_ok, pure_ok]
    exact ⟨_, ps, s', hps, rfl⟩

theorem compilable_binary :
    Compilable t (.binary op a b) ↔
      Expr.OperatorFits op a b ∧ Compilable t a ∧ Compilable t b := by
  have hfits {d : Dialect} {fa fb : Fragment} (ha : Compiles t d a fa) (hb : Compiles t d b fb) :
      (∃ f, comparison d op fa fb = .ok f) ↔ Expr.OperatorFits op a b := by
    rw [comparison_ok_iff, ha.isNullParam, hb.isNullParam, Expr.OperatorFits]
  constructor
  · intro h
    obtain ⟨f, hf⟩ := h.compiles .sqlite
    obtain ⟨fa, fb, ha, hb, hab⟩ := hf.binary
    exact ⟨(hfits ha hb).1 ⟨f, hab⟩, ha.compilable, hb.compilable⟩
  · rintro ⟨hop, ha, hb⟩ d hint s
    obtain ⟨⟨fa, s₁⟩, hfa⟩ := ha d hint s
    obtain ⟨⟨fb, s₂⟩, hfb⟩ := hb d (d.render fa.sql) s₁
    obtain ⟨f, hf⟩ := (hfits ⟨_, _, _, hfa⟩ ⟨_, _, _, hfb⟩).2 hop
    simp only [fragment, bind_ok, lift_ok]
    exact ⟨(f, s₂), fa, s₁, hfa, fb, s₂, hfb, hf, rfl⟩

theorem compilable_not : Compilable t e.not ↔ Compilable t e := by
  constructor
  · intro h
    obtain ⟨f, hf⟩ := h.compiles .sqlite
    obtain ⟨g, hg, -⟩ := hf.not
    exact hg.compilable
  · intro h d hint s
    obtain ⟨⟨f, s₁⟩, hf⟩ := h d hint s
    simp only [fragment, bind_ok, pure_ok]
    exact ⟨_, f, s₁, hf, rfl⟩

theorem compilable_convert :
    Compilable t (e.convert k) ↔ Expr.ConversionFits e k ∧ Compilable t e := by
  have hfits {d : Dialect} {f : Fragment} (hf : Compiles t d e f) :
      (∃ g, conversion f k = .ok g) ↔ Expr.ConversionFits e k := by
    rw [conversion_ok_iff, hf.carries.1, hf.carries.2, Expr.ConversionFits]
  constructor
  · intro h
    obtain ⟨f, hf⟩ := h.compiles .sqlite
    obtain ⟨g, hg, hconv⟩ := hf.convert
    exact ⟨(hfits hg).1 ⟨f, hconv⟩, hg.compilable⟩
  · rintro ⟨hk, h⟩ d hint s
    obtain ⟨⟨f, s₁⟩, hf⟩ := h d hint s
    obtain ⟨g, hg⟩ := (hfits ⟨_, _, _, hf⟩).2 hk
    simp only [fragment, bind_ok, lift_ok]
    exact ⟨(g, s₁), f, s₁, hf, hg, rfl⟩

theorem not_compilable_conditional {c : Expr} : ¬Compilable t (.conditional c a b) := by
  intro h
  obtain ⟨f, hf⟩ := h.compiles .sqlite
  exact Compiles.not_conditional hf

theorem compilable_of_receiver {fr : Option Fragment} (h : Compiles.Receiver t d r fr) :
    ∀ e ∈ r.toList, Compilable t e := by
  intro e he
  cases h with
  | none => cases he
  | some hf =>
    rw [Option.toList_some, List.mem_singleton] at he
    exact he ▸ hf.compilable

theorem receiverFragment_ok (h : ∀ e ∈ r.toList, Compilable t e) (d : Dialect) (hint : String)
    (s : Drawn) : ∃ x, receiverFragment t d hint r s = .ok x := by
  cases r with
  | none => exact ⟨_, by rw [receiverFragment, pure_ok]⟩
  | some e =>
    obtain ⟨⟨f, s₁⟩, hf⟩ := h e (by simp) d hint s
    simp only [receiverFragment, bind_ok, pure_ok]
    exact ⟨_, f, s₁, hf, rfl⟩

theorem argFragments_ok {count : Nat} (h : ∀ a ∈ as.take count, Compilable t a) (d : Dialect)
    (hint : String) (s : Drawn) : ∃ x, argFragments t d hint count as s = .ok x := by
  induction count generalizing as s with
  | zero => exact ⟨_, by rw [argFragments, pure_ok]⟩
  | succ count ih =>
    cases as with
    | nil => exact ⟨_, by rw [argFragments, pure_ok]; simp⟩
    | cons a as =>
      rw [List.take_succ_cons, List.forall_mem_cons] at h
      obtain ⟨⟨f, s₁⟩, hf⟩ := h.1 d hint s
      obtain ⟨⟨fs, s₂⟩, hfs⟩ := ih h.2 s₁
      simp only [argFragments, bind_ok, pure_ok]
      exact ⟨_, f, s₁, hf, fs, s₂, hfs, rfl⟩

/-- The values of a call are measured as they are carried. -/
theorem applied_fits {mode : Option Comparison} {overList : Bool} {fr : Option Fragment}
    {fs : List Fragment} (hr : Compiles.Receiver t d r fr) (hmode : modeOf? m as = .ok mode)
    (hfs : List.Forall₂ (Compiles t d) (Expr.valuesOf m as) fs) :
    (∃ f, applied d m mode overList fr fs = .ok f) ↔ Expr.CallFits m r as := by
  have hsome : fr.isSome = r.isSome := by
    cases hr <;> rfl
  rw [applied_ok_iff, ← hfs.length_eq, hsome]
  constructor
  · rintro ⟨hneeds, htext⟩
    refine ⟨hneeds, modeOf?_ok_iff.1 ⟨mode, hmode⟩, fun hm a c hone hc hcase => ?_⟩
    -- the fragment of the only value carries what the value does
    rw [testMode?_of_modeOf? hm hmode hone] at hc
    cases hc
    rw [hone] at hfs
    obtain _ | @⟨_, g, _, _, hg, hrest⟩ := hfs
    cases hrest
    rw [← hg.carries.1]
    exact htext hm g rfl hcase
  · rintro ⟨hneeds, -, htext⟩
    refine ⟨hneeds, fun hm g hone hcase => ?_⟩
    subst hone
    cases hvalues : Expr.valuesOf m as with
    | nil => rw [hvalues] at hfs; cases hfs
    | cons a rest =>
      rw [hvalues] at hfs
      obtain _ | @⟨_, _, _, _, hg, hrest⟩ := hfs
      cases hrest
      rw [hg.carries.1]
      exact htext hm a _ hvalues (testMode?_of_modeOf? hm hmode hvalues) hcase

theorem compilable_call :
    Compilable t (.call m r as) ↔
      Expr.CallFits m r as ∧ ∀ p ∈ r.toList ++ Expr.valuesOf m as, Compilable t p := by
  constructor
  · intro h
    obtain ⟨f, hf⟩ := h.compiles .sqlite
    obtain ⟨fr, mode, fs, hr, hmode, hfs, hf⟩ := hf.call
    rw [take_of_modeOf? hmode] at hfs
    refine ⟨(applied_fits hr hmode hfs).1 ⟨f, hf⟩, fun p hp => ?_⟩
    rcases List.mem_append.1 hp with hp | hp
    · exact compilable_of_receiver hr p hp
    · obtain ⟨g, -, hg⟩ := exists_of_mem_right hfs.flip hp
      exact Compiles.compilable hg
  · rintro ⟨hfits, hparts⟩ d hint s
    rw [List.forall_mem_append] at hparts
    obtain ⟨mode, hmode⟩ := modeOf?_ok_iff.2 hfits.mode
    obtain ⟨⟨fr, s₁⟩, hfr⟩ := receiverFragment_ok hparts.1 d hint s
    have hargs := (take_of_modeOf? hmode).symm ▸ hparts.2
    -- the receiver gives the hint, but the arguments compile with any
    choose x hx using fun hint => argFragments_ok hargs d hint s₁
    have hvalues hint := take_of_modeOf? hmode ▸ Compiles.args (hx hint)
    choose f hf using fun hint =>
      (applied_fits (Compiles.receiver hfr) hmode (hvalues hint)).2 hfits
    simp only [fragment, bind_ok, lift_ok]
    exact ⟨(_, _), fr, s₁, hfr, mode, s₁, ⟨hmode, rfl⟩, _, _, hx _, hf _, rfl⟩

/-- Opening changes neither the mode of a call nor the values that it carries. -/
theorem callFits_opened :
    Expr.CallFits m (r.map Expr.opened) (as.map Expr.opened) ↔ Expr.CallFits m r as := by
  have hvalues : Expr.valuesOf m (as.map Expr.opened) = (Expr.valuesOf m as).map Expr.opened := by
    rw [← Expr.openedArgs_eq, Expr.valuesOf_openedArgs]
  have hmode : Expr.testMode? (as.map Expr.opened) = Expr.testMode? as := by
    rw [← Expr.openedArgs_eq, Expr.testMode?_openedArgs]
  constructor
  · intro h
    have hreceiver := h.receiver
    rw [hvalues, List.length_map, Option.isSome_map] at hreceiver
    have hwanted := h.mode
    rw [List.length_map, hmode] at hwanted
    refine ⟨hreceiver, hwanted, fun hm a c hone hc hcase => ?_⟩
    rw [← Expr.carried?_opened]
    exact h.text hm _ c (by rw [hvalues, hone, List.map_singleton]) (hmode.trans hc) hcase
  · intro h
    refine ⟨?_, ?_, fun hm a c hone hc hcase => ?_⟩
    · rw [hvalues, List.length_map, Option.isSome_map]
      exact h.receiver
    · rw [List.length_map, hmode]
      exact h.mode
    · rw [hvalues] at hone
      obtain ⟨b, hb, rfl⟩ := List.map_eq_singleton_iff.1 hone
      rw [Expr.carried?_opened]
      exact h.text hm b c hb (hmode ▸ hc) hcase

/-- A node that is read as it stands asks for itself and for its parts, opened. -/
theorem compilable_opened (h : e.readAs? = none) :
    Compilable t e.opened ↔ e.Fits t ∧ ∀ p ∈ e.parts, Compilable t p.opened := by
  cases e with
  | column name => simp [Expr.opened, Expr.parts, compilable_column]
  | constant v => simp [Expr.opened, Expr.parts, compilable_constant]
  | collection vs => simp [Expr.opened, Expr.parts, compilable_collection]
  | binary op a b =>
    rw [Expr.opened_binary h, compilable_binary]
    simp [Expr.Fits, Expr.parts, Expr.OperatorFits, Expr.isNullParameter_opened]
  | not e => simp [Expr.opened, Expr.parts, Expr.Fits, compilable_not]
  | convert e k =>
    simp [Expr.opened, Expr.parts, Expr.Fits, compilable_convert, Expr.ConversionFits,
      Expr.carried?_opened, Expr.isParameter_opened]
  | conditional c a b => simp [Expr.opened, Expr.Fits, not_compilable_conditional]
  | call m r as =>
    have hparts : (r.map Expr.opened).toList ++ (Expr.valuesOf m as).map Expr.opened =
        (Expr.call m r as).parts.map Expr.opened := by
      rw [Expr.parts, List.map_append]
      cases r <;> rfl
    rw [Expr.opened, compilable_call, Expr.valuesOf_openedArgs, Expr.openedReceiver_eq, hparts,
      List.forall_mem_map, Expr.openedArgs_eq, callFits_opened, Expr.Fits]

end Nodes

/-- Along the reading of a predicate, so that what is dropped asks for nothing. -/
theorem compilable_opened_iff {t : Mapping} (e : Expr) :
    Compilable t e.opened ↔ ∀ n, e.Visits n → n.Fits t := by
  induction e using Expr.reading_induction with
  | readAs e e' h ih =>
    rw [Expr.opened_of_readAs? h, ih]
    simp only [Expr.visits_of_readAs? h]
  | node e h ih =>
    rw [compilable_opened h]
    constructor
    · rintro ⟨hfits, hparts⟩ n hn
      rcases (Expr.visits_of_none h).1 hn with rfl | ⟨p, hp, hn⟩
      · exact hfits
      · exact (ih p hp).1 (hparts p hp) n hn
    · intro hall
      exact ⟨hall e (.self h), fun p hp => (ih p hp).2 fun n hn => hall n (.part h hp hn)⟩

theorem exists_compile_iff {t : Mapping} (d : Dialect) :
    (∃ c, compile e t d = .ok c) ↔ Compilable t e.opened := by
  constructor
  · rintro ⟨c, hc⟩
    obtain ⟨f, hf, -⟩ := compiles_of_compile hc
    exact hf.compilable
  · intro h
    obtain ⟨⟨f, s⟩, hf⟩ := h d "" []
    exact ⟨⟨f.sql, f.params⟩, except_bind_ok.2 ⟨(f, s), hf, rfl⟩⟩

end Compile

/-- A predicate compiles exactly when every node that is visited fits, for either dialect. -/
theorem compile_ok_iff (t : Mapping) (d : Dialect) (e : Expr) :
    (∃ c, compile e t d = .ok c) ↔ ∀ n, e.Visits n → n.Fits t := by
  rw [Compile.exists_compile_iff, Compile.compilable_opened_iff]

end RowLedger
