import RowLedger.Predicate.Expr

/-! The predicates that the builder makes. Opening three-way comparisons leads to no others. -/

namespace RowLedger.Expr

/-- Made by the functions of the builder. A method by its name is one without a form of its own. -/
inductive Built : Expr → Prop
  | column (name : String) : Built (column name)
  | constant (v : Value) : Built (constant v)
  | binary {a b : Expr} (op : BinaryOp) : Built a → Built b → Built (binary op a b)
  | not {e : Expr} : Built e → Built e.not
  | like {e pattern : Expr} : Built e → Built pattern → Built (e.like pattern)
  | contains {e needle : Expr} : Built e → Built needle → Built (e.contains needle)
  | isIn {e : Expr} (vs : List Value) : Built e → Built (e.isIn vs)
  | startsWith {e start : Expr} : Built e → Built start → Built (e.startsWith start)
  | startsWithMode {e start : Expr} (c : Comparison) :
      Built e → Built start → Built (e.startsWithMode start c)
  | endsWith {e ending : Expr} : Built e → Built ending → Built (e.endsWith ending)
  | endsWithMode {e ending : Expr} (c : Comparison) :
      Built e → Built ending → Built (e.endsWithMode ending c)
  | equals {e other : Expr} : Built e → Built other → Built (e.equals other)
  | toLower {e : Expr} : Built e → Built e.toLower
  | toUpper {e : Expr} : Built e → Built e.toUpper
  | replace {e source target : Expr} :
      Built e → Built source → Built target → Built (e.replace source target)
  | isNullOrEmpty {e : Expr} : Built e → Built e.isNullOrEmpty
  | method {e : Expr} {as : List Expr} (name : String) :
      Built e → (∀ a ∈ as, Built a) → Built (call (.other name) (some e) as)
  | convert {e : Expr} (k : Kind) : Built e → Built (e.convert k)
  | compareString {a b : Expr} (asText : Bool) :
      Built a → Built b → Built (Expr.compareString a b asText)
  | conditional {test a b : Expr} :
      Built test → Built a → Built b → Built (conditional test a b)

theorem mem_openedArgs {as : List Expr} {b : Expr} (h : b ∈ openedArgs as) :
    ∃ a ∈ as, b = a.opened := by
  induction as with
  | nil => simp [openedArgs] at h
  | cons a as ih =>
    rw [openedArgs, List.mem_cons] at h
    rcases h with rfl | h
    · exact ⟨a, List.mem_cons_self, rfl⟩
    · obtain ⟨c, hc, rfl⟩ := ih h
      exact ⟨c, List.mem_cons_of_mem a hc, rfl⟩

namespace Built

theorem operands {a b : Expr} (ha : Built a) (hb : Built b) :
    Built (Expr.operands a b).1 ∧ Built (Expr.operands a b).2 := by
  fun_induction Expr.operands a b with
  | case1 b x y z ih =>
    cases ha with
    | compareString asText hx hy => exact ih hx hy
  | case2 => exact ⟨ha, hb⟩

theorem opened {e : Expr} (h : Built e) : Built e.opened := by
  induction h with
  | column name => exact .column name
  | constant v => exact .constant v
  | binary op _ _ iha ihb =>
    rw [Expr.opened]
    exact .binary op (iha.operands ihb).1 (iha.operands ihb).2
  | not _ ih => exact .not ih
  | like _ _ iha ihb => exact .like iha ihb
  | contains _ _ iha ihb => exact .contains iha ihb
  | isIn vs _ ih => exact .isIn vs ih
  | startsWith _ _ iha ihb => exact .startsWith iha ihb
  | startsWithMode c _ _ iha ihb => exact .startsWithMode c iha ihb
  | endsWith _ _ iha ihb => exact .endsWith iha ihb
  | endsWithMode c _ _ iha ihb => exact .endsWithMode c iha ihb
  | equals _ _ iha ihb => exact .equals iha ihb
  | toLower _ ih => exact .toLower ih
  | toUpper _ ih => exact .toUpper ih
  | replace _ _ _ iha ihb ihc => exact .replace iha ihb ihc
  | isNullOrEmpty _ ih => exact .isNullOrEmpty ih
  | method name _ _ ih ihs =>
    refine .method name ih fun b hb => ?_
    obtain ⟨a, ha, rfl⟩ := mem_openedArgs hb
    exact ihs a ha
  | convert k _ ih => exact .convert k ih
  | compareString asText _ _ iha ihb => exact .compareString asText iha ihb
  | conditional _ _ _ iht iha ihb => exact .conditional iht iha ihb

theorem isCollection {e : Expr} (h : Built e) : e.isCollection = false := by
  cases h <;> rfl

end Built

end RowLedger.Expr
