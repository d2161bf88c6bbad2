import Mathlib.Data.List.Forall2
import RowLedger.Predicate.Compile

/-!
What the nodes of a predicate compile to, apart from the names of their parameters, and the values
that they carry.
-/

namespace RowLedger

namespace Compile

section Naming

variable {α β : Type} {s : Drawn}

theorem bind_ok {x : Naming α} {f : α → Naming β} {r : β × Drawn} :
    (x >>= f) s = .ok r ↔ ∃ a s', x s = .ok (a, s') ∧ f a s' = .ok r := by
  change StateT.bind x f s = _ ↔ _
  unfold StateT.bind
  cases x s with
  | error e => simp [bind, Except.bind]
  | ok p =>
    obtain ⟨a, s'⟩ := p
    simp [bind, Except.bind]

theorem pure_ok {a : α} {r : α × Drawn} : (pure a : Naming α) s = .ok r ↔ r = (a, s) := by
  change Except.ok (a, s) = .ok r ↔ _
  rw [Except.ok.injEq, eq_comm]

theorem lift_ok {x : Except Error α} {r : α × Drawn} :
    (liftM x : Naming α) s = .ok r ↔ x = .ok r.1 ∧ s = r.2 := by
  change (x >>= fun a => pure (a, s)) = .ok r ↔ _
  obtain ⟨b, s'⟩ := r
  cases x with
  | error e => simp [bind, Except.bind]
  | ok a => simp [bind, Except.bind, pure, Except.pure]

theorem liftM_ok (a : α) : (liftM (Except.ok a : Except Error α) : Naming α) = pure a := rfl

theorem throw_ok {e : Error} {r : α × Drawn} : ¬(throw e : Naming α) s = .ok r := by
  intro h
  cases h

end Naming

/-- A node compiles to a fragment, whichever names its parameters draw. -/
def Compiles (t : Mapping) (d : Dialect) (e : Expr) (f : Fragment) : Prop :=
  ∃ hint s s', fragment t d hint e s = .ok (f, s')

variable {t : Mapping} {d : Dialect} {f : Fragment}

-- the equations of the recursion are made once, here, and not by each lemma that opens a node
attribute [local simp] fragment receiverFragment argFragments

namespace Compiles

theorem column {name : String} (h : Compiles t d (.column name) f) :
    ∃ c, t.resolve name = .ok c ∧ f = { sql := [.name c.name], params := [] } := by
  obtain ⟨hint, s, s', h⟩ := h
  simp only [fragment, bind_ok, pure_ok, lift_ok] at h
  obtain ⟨c, s₁, ⟨hc, _⟩, hf⟩ := h
  exact ⟨c, hc, (Prod.mk.inj hf).1⟩

theorem constant {v : Value} (h : Compiles t d (.constant v) f) :
    ∃ name x, v.toSql = .ok x ∧
      f = { sql := [.hole name], params := [⟨name, x⟩], value := some v, isParam := true } := by
  obtain ⟨hint, s, s', h⟩ := h
  simp only [fragment, Compile.constant, bind_ok, pure_ok, lift_ok] at h
  obtain ⟨name, s₁, _, x, s₂, ⟨hx, _⟩, hf⟩ := h
  exact ⟨name, x, hx, (Prod.mk.inj hf).1⟩

theorem elements_bound {hint : String} {vs : List Value} {ps : List Param} {s s' : Drawn}
    (h : elements hint vs s = .ok (ps, s')) :
    List.Forall₂ (fun v p => v.toSql = .ok p.value) vs ps := by
  induction vs generalizing ps s s' with
  | nil =>
    rw [elements, pure_ok] at h
    rw [(Prod.mk.inj h).1]
    exact .nil
  | cons v vs ih =>
    simp only [elements, bind_ok, pure_ok, lift_ok] at h
    obtain ⟨name, s₁, _, x, s₂, ⟨hx, _⟩, qs, s₃, hqs, hps⟩ := h
    rw [(Prod.mk.inj hps).1]
    exact .cons hx (ih hqs)

theorem collection {vs : List Value} (h : Compiles t d (.collection vs) f) :
    ∃ ps, List.Forall₂ (fun v p => v.toSql = .ok p.value) vs ps ∧
      f = {
        sql := Sql.parenthesized (Sql.joined "," (ps.map fun p => [.hole p.name]))
        params := ps } := by
  obtain ⟨hint, s, s', h⟩ := h
  simp only [fragment, Compile.collection, bind_ok, pure_ok] at h
  obtain ⟨ps, s₁, hps, hf⟩ := h
  exact ⟨ps, elements_bound hps, (Prod.mk.inj hf).1⟩

theorem binary {op : BinaryOp} {a b : Expr} (h : Compiles t d (.binary op a b) f) :
    ∃ fa fb, Compiles t d a fa ∧ Compiles t d b fb ∧ comparison d op fa fb = .ok f := by
  obtain ⟨hint, s, s', h⟩ := h
  simp only [fragment, bind_ok, lift_ok] at h
  obtain ⟨fa, s₁, ha, fb, s₂, hb, hf, _⟩ := h
  exact ⟨fa, fb, ⟨_, _, _, ha⟩, ⟨_, _, _, hb⟩, hf⟩

theorem not {e : Expr} (h : Compiles t d (.not e) f) :
    ∃ g, Compiles t d e g ∧ f = negation g := by
  obtain ⟨hint, s, s', h⟩ := h
  simp only [fragment, bind_ok, pure_ok] at h
  obtain ⟨g, s₁, hg, hf⟩ := h
  exact ⟨g, ⟨_, _, _, hg⟩, (Prod.mk.inj hf).1⟩

theorem convert {e : Expr} {k : Kind} (h : Compiles t d (.convert e k) f) :
    ∃ g, Compiles t d e g ∧ conversion g k = .ok f := by
  obtain ⟨hint, s, s', h⟩ := h
  simp only [fragment, bind_ok, lift_ok] at h
  obtain ⟨g, s₁, hg, hf, _⟩ := h
  exact ⟨g, ⟨_, _, _, hg⟩, hf⟩

theorem not_conditional {a b c : Expr} : ¬Compiles t d (.conditional a b c) f := by
  rintro ⟨hint, s, s', h⟩
  rw [fragment] at h
  exact throw_ok h

/-- The fragment of a receiver, if there is one. -/
inductive Receiver (t : Mapping) (d : Dialect) : Option Expr → Option Fragment → Prop
  | none : Receiver t d none none
  | some {e : Expr} {f : Fragment} (h : Compiles t d e f) : Receiver t d (some e) (some f)

theorem receiver {hint : String} {r : Option Expr} {g : Option Fragment} {s s' : Drawn}
    (h : receiverFragment t d hint r s = .ok (g, s')) : Receiver t d r g := by
  cases r with
  | none =>
    rw [receiverFragment, pure_ok] at h
    rw [(Prod.mk.inj h).1]
    exact .none
  | some e =>
    simp only [receiverFragment, bind_ok, pure_ok] at h
    obtain ⟨g', s₁, hg, h⟩ := h
    rw [(Prod.mk.inj h).1]
    exact .some ⟨_, _, _, hg⟩

theorem args {hint : String} {count : Nat} {as : List Expr} {fs : List Fragment} {s s' : Drawn}
    (h : argFragments t d hint count as s = .ok (fs, s')) :
    List.Forall₂ (Compiles t d) (as.take count) fs := by
  induction count generalizing as fs s s' with
  | zero =>
    rw [argFragments, pure_ok] at h
    rw [(Prod.mk.inj h).1, List.take_zero]
    exact .nil
  | succ count ih =>
    cases as with
    | nil =>
      rw [argFragments, pure_ok] at h
      · rw [(Prod.mk.inj h).1]
        exact .nil
      · simp
    | cons e es =>
      simp only [argFragments, bind_ok, pure_ok] at h
      obtain ⟨f, s₁, hf, gs, s₂, hgs, h⟩ := h
      rw [(Prod.mk.inj h).1, List.take_succ_cons]
      exact .cons ⟨_, _, _, hf⟩ (ih hgs)

theorem call {m : Method} {r : Option Expr} {as : List Expr} (h : Compiles t d (.call m r as) f) :
    ∃ g mode fs, Receiver t d r g ∧ modeOf? m as = .ok mode ∧
      List.Forall₂ (Compiles t d) (as.take (if mode.isSome then 1 else as.length)) fs ∧
      applied d m mode ((r.map Expr.isCollection).getD false) g fs = .ok f := by
  obtain ⟨hint, s, s', h⟩ := h
  simp only [fragment, bind_ok, lift_ok] at h
  obtain ⟨g, s₁, hg, mode, s₂, ⟨hm, _⟩, fs, s₃, hfs, hf, _⟩ := h
  exact ⟨g, mode, fs, receiver hg, hm, args hfs, hf⟩

end Compiles

/-- A compiled predicate is what its opened form compiles to. -/
theorem compiles_of_compile {e : Expr} {c : Condition} (h : compile e t d = .ok c) :
    ∃ f, Compiles t d e.opened f ∧ c = ⟨f.sql, f.params⟩ := by
  unfold compile at h
  cases hf : (fragment t d "" e.opened).run [] with
  | error err =>
    rw [hf] at h
    cases h
  | ok p =>
    rw [hf] at h
    exact ⟨p.1, ⟨_, _, _, hf⟩, (Except.ok.inj h).symm⟩

end Compile

end RowLedger
