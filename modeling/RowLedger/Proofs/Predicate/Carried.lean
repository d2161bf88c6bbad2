import RowLedger.Proofs.Outcome
import RowLedger.Proofs.Predicate.Compilation

/-!
The value that a node carries with its text: a constant carries its own, also through conversions
and negation. A parameter is a constant under any number of conversions.
-/

namespace RowLedger

/-- The word between an operand and null. -/
def BinaryOp.nullKeyword? (op : BinaryOp) : Option String :=
  if op = .eq then some "is"
  else if op = .ne then some "is not"
  else if op.isOrdering then some "<"
  else none

namespace Expr

/-- A negated truth value; other values stay. -/
def negated : Value → Value
  | .bool b => .bool !b
  | v => v

def carried? : Expr → Option Value
  | constant v => some v
  | not e => (carried? e).map negated
  | convert e k => (carried? e).bind fun v => (v.convert k).toOption
  | _ => none

def isParameter : Expr → Bool
  | constant _ => true
  | convert e _ => isParameter e
  | _ => false

def isNullParameter (e : Expr) : Bool := e.isParameter && e.carried? == some .null

end Expr

namespace Compile

variable {t : Mapping} {d : Dialect} {f : Fragment}

/-- A comparison with null binds it, or writes it out. -/
def nullFragment (d : Dialect) (keyword : String) (operand null : Fragment) : Fragment :=
  if d.bindsNullComparisons then {
    sql := .word "(" :: operand.sql ++ .word (" " ++ keyword ++ " ") :: null.sql ++ [.word ")"]
    params := operand.params ++ null.params }
  else {
    sql := .word "(" :: operand.sql ++ [.word (" " ++ keyword ++ " null)")]
    params := operand.params }

theorem nullComparison_eq (op : BinaryOp) (operand null : Fragment) :
    nullComparison d op operand null =
      match op.nullKeyword? with
      | some keyword => .ok (nullFragment d keyword operand null)
      | none => .error (.unsupportedNullComparison op.name) := by
  cases d <;> cases op <;> rfl

theorem nullComparison_ok {op : BinaryOp} {operand null : Fragment}
    (h : nullComparison d op operand null = .ok f) :
    ∃ keyword, op.nullKeyword? = some keyword ∧ f = nullFragment d keyword operand null := by
  rw [nullComparison_eq] at h
  cases hop : op.nullKeyword? with
  | none => simp [hop] at h
  | some keyword =>
    rw [hop] at h
    exact ⟨keyword, rfl, (Except.ok.inj h).symm⟩

/-- The fragment of an operator between two operands. -/
def operatorFragment (token : String) (a b : Fragment) : Fragment where
  sql := .word "(" :: a.sql ++ .word (" " ++ token ++ " ") :: b.sql ++ [.word ")"]
  params := a.params ++ b.params

/-- A null on the left goes before one on the right, and both before the operator. -/
theorem comparison_ok {op : BinaryOp} {a b : Fragment} (h : comparison d op a b = .ok f) :
    (a.isNullParam = true ∧ ∃ k, op.nullKeyword? = some k ∧ f = nullFragment d k b a) ∨
    (a.isNullParam = false ∧ b.isNullParam = true ∧
      ∃ k, op.nullKeyword? = some k ∧ f = nullFragment d k a b) ∨
    (a.isNullParam = false ∧ b.isNullParam = false ∧
      ∃ w, op.token? = some w ∧ f = operatorFragment w a b) := by
  unfold comparison at h
  cases ha : a.isNullParam with
  | true =>
    rw [ha, if_pos rfl] at h
    exact .inl ⟨rfl, nullComparison_ok h⟩
  | false =>
    rw [ha, if_neg Bool.false_ne_true] at h
    cases hb : b.isNullParam with
    | true =>
      rw [hb, if_pos rfl] at h
      exact .inr (.inl ⟨rfl, rfl, nullComparison_ok h⟩)
    | false =>
      rw [hb, if_neg Bool.false_ne_true] at h
      cases hop : op.token? with
      | none => simp [hop] at h
      | some w =>
        rw [hop] at h
        exact .inr (.inr ⟨rfl, rfl, w, rfl, (Except.ok.inj h).symm⟩)

theorem comparison_plain {op : BinaryOp} {a b : Fragment} (h : comparison d op a b = .ok f) :
    ∃ sql params, f = { sql, params } := by
  have null (k : String) (x y : Fragment) :
      ∃ sql params, nullFragment d k x y = { sql, params } := by
    unfold nullFragment
    split <;> exact ⟨_, _, rfl⟩
  obtain ⟨_, k, _, rfl⟩ | ⟨_, _, k, _, rfl⟩ | ⟨_, _, w, _, rfl⟩ := comparison_ok h
  · exact null k b a
  · exact null k a b
  · exact ⟨_, _, rfl⟩

/-- No call carries a value. -/
theorem applied_plain {m : Method} {mode : Option Comparison} {overList : Bool}
    {receiver : Option Fragment} {args : List Fragment}
    (h : applied d m mode overList receiver args = .ok f) : ∃ sql params, f = { sql, params } := by
  unfold applied at h
  dsimp only at h
  split at h
  -- without a receiver to look for
  case h_1 | h_2 | h_10 | h_11 => exact ⟨_, _, (Except.ok.inj h).symm⟩
  all_goals
    obtain ⟨r, _, h⟩ := except_bind_ok.mp h
  case h_6 | h_7 | h_8 | h_9 => exact ⟨_, _, (Except.ok.inj h).symm⟩
  all_goals split at h
  -- an exact test measures its argument
  case h_4.isFalse | h_5.isFalse =>
    obtain ⟨n, _, h⟩ := except_bind_ok.mp h
    exact ⟨_, _, (Except.ok.inj h).symm⟩
  all_goals exact ⟨_, _, (Except.ok.inj h).symm⟩

/-- What a conversion makes of a fragment with a value. -/
theorem conversion_value {g : Fragment} {k : Kind} {v : Value} (hv : g.value = some v)
    (h : conversion g k = .ok f) :
    ∃ w, v.convert k = .ok w ∧ f.value = some w ∧ f.isParam = g.isParam := by
  simp only [conversion, hv] at h
  obtain ⟨w, hw, h⟩ := except_bind_ok.mp h
  refine ⟨w, hw, ?_⟩
  split at h
  · obtain ⟨x, _, h⟩ := except_bind_ok.mp h
    cases h
    exact ⟨rfl, rfl⟩
  · cases h
    exact ⟨rfl, rfl⟩

/-- Only a parameter is bound anew. -/
theorem conversion_text {g : Fragment} {k : Kind} (hg : g.isParam = false)
    (h : conversion g k = .ok f) : f.sql = g.sql ∧ f.params = g.params := by
  unfold conversion at h
  split at h
  · cases h
    exact ⟨rfl, rfl⟩
  · obtain ⟨w, _, h⟩ := except_bind_ok.mp h
    rw [hg, if_neg Bool.false_ne_true] at h
    cases h
    exact ⟨rfl, rfl⟩

namespace Compiles

theorem carries {e : Expr} (h : Compiles t d e f) :
    f.value = e.carried? ∧ f.isParam = e.isParameter := by
  induction e using Expr.carried?.induct generalizing f with
  | case1 v =>
    obtain ⟨name, x, _, rfl⟩ := h.constant
    exact ⟨rfl, rfl⟩
  | case2 e ih =>
    obtain ⟨g, hg, rfl⟩ := h.not
    refine ⟨?_, rfl⟩
    rw [Expr.carried?, ← (ih hg).1, negation]
    rcases g.value with - | v
    · rfl
    · cases v <;> rfl
  | case3 e k ih =>
    obtain ⟨g, hg, hf⟩ := h.convert
    obtain ⟨hv, hp⟩ := ih hg
    rw [Expr.carried?, Expr.isParameter, ← hv, ← hp]
    cases hgv : g.value with
    | none =>
      simp only [conversion, hgv] at hf
      cases hf
      exact ⟨hgv, rfl⟩
    | some v =>
      obtain ⟨w, hw, hfv, hfp⟩ := conversion_value hgv hf
      simp [hfv, hfp, hw, Except.toOption]
  | case4 e hc hn hk =>
    have plain : ∃ sql params, f = { sql, params } := by
      cases e with
      | column name =>
        obtain ⟨c, _, hf⟩ := h.column
        exact ⟨_, _, hf⟩
      | constant v => exact absurd rfl (hc v)
      | collection vs =>
        obtain ⟨ps, _, hf⟩ := h.collection
        exact ⟨_, _, hf⟩
      | binary op a b =>
        obtain ⟨fa, fb, _, _, hf⟩ := h.binary
        exact comparison_plain hf
      | not e => exact absurd rfl (hn e)
      | call m r as =>
        obtain ⟨g, mode, fs, _, _, _, hf⟩ := h.call
        exact applied_plain hf
      | convert e k => exact absurd rfl (hk e k)
      | conditional a b c => exact absurd h not_conditional
    obtain ⟨sql, params, rfl⟩ := plain
    cases e with
    | constant v => exact absurd rfl (hc v)
    | not e => exact absurd rfl (hn e)
    | convert e k => exact absurd rfl (hk e k)
    | _ => exact ⟨rfl, rfl⟩

/-- A parameter is one mark, bound to the value that it carries. -/
theorem parameter {e : Expr} (h : Compiles t d e f) (he : e.isParameter = true) :
    ∃ v name x, e.carried? = some v ∧ v.toSql = .ok x ∧
      f = { sql := [.hole name], params := [⟨name, x⟩], value := some v, isParam := true } := by
  induction e using Expr.isParameter.induct generalizing f with
  | case1 v =>
    obtain ⟨name, x, hx, rfl⟩ := h.constant
    exact ⟨v, name, x, rfl, hx, rfl⟩
  | case2 e k ih =>
    obtain ⟨g, hg, hf⟩ := h.convert
    obtain ⟨v, name, x, hv, _, rfl⟩ := ih hg he
    simp only [conversion] at hf
    obtain ⟨w, hw, hf⟩ := except_bind_ok.mp hf
    obtain ⟨y, hy, hf⟩ := except_bind_ok.mp hf
    cases hf
    refine ⟨w, name, y, ?_, hy, rfl⟩
    simp [Expr.carried?, hv, hw, Except.toOption]
  | case3 e hc hk => simp [Expr.isParameter] at he

theorem isNullParam {e : Expr} (h : Compiles t d e f) : f.isNullParam = e.isNullParameter := by
  rw [Fragment.isNullParam, Expr.isNullParameter, h.carries.1, h.carries.2]

end Compiles

end Compile

end RowLedger
