import RowLedger.Proofs.Database.Phrase
import RowLedger.Proofs.Outcome
import RowLedger.Database.Evaluation

/-!
The value of a term, in which parameters count as the values that are bound to them. A phrase is so
worth the same wherever it stands in a text, if its own parameters are bound to the same.
-/

namespace RowLedger

/-- What is bound to the parameter of that number; null where nothing is. -/
def Term.boundTo (ps : List Datum) (n : Nat) : Datum := (ps[n - 1]?).getD .null

namespace Term

variable {ν : Type} {ps qs : List Datum}

theorem boundTo_last (ps : List Datum) (d : Datum) : boundTo (ps ++ [d]) (ps.length + 1) = d := by
  simp [boundTo]

mutual

/-- The term with values in the place of its parameters. -/
def bound (ps : List Datum) : Term ν → Term ν
  | literal d => literal d
  | column c => column c
  | parameter n => literal (boundTo ps n)
  | negate t => negate (bound ps t)
  | complement t => complement (bound ps t)
  | not t => not (bound ps t)
  | binary op a b => binary op (bound ps a) (bound ps b)
  | among t list => among (bound ps t) (allBound ps list)
  | like t p => like (bound ps t) (bound ps p)
  | call f args => call f (allBound ps args)
  | countRows => countRows
  | collate t c => collate (bound ps t) c

def allBound (ps : List Datum) : List (Term ν) → List (Term ν)
  | [] => []
  | t :: ts => bound ps t :: allBound ps ts

end

theorem length_allBound (ts : List (Term ν)) : (allBound ps ts).length = ts.length := by
  induction ts with
  | nil => rfl
  | cons t ts ih => rw [allBound, List.length_cons, List.length_cons, ih]

/-! A value says as little about comparisons as a parameter does. -/

theorem affinity?_bound (t : Term CellRef) : (t.bound ps).affinity? = t.affinity? := by
  induction t using affinity?.induct with
  | case1 s => rfl
  | case2 t c ih => exact ih
  | case3 t hcolumn hcollate =>
    cases t with
    | column s => exact absurd rfl (hcolumn s)
    | collate t c => exact absurd rfl (hcollate t c)
    | _ => rfl

theorem explicitCollation?_bound (t : Term CellRef) :
    (t.bound ps).explicitCollation? = t.explicitCollation? := by
  cases t <;> rfl

theorem collation?_bound (t : Term CellRef) : (t.bound ps).collation? = t.collation? := by
  cases t <;> rfl

theorem comparing_bound (a b : Term CellRef) :
    comparing (a.bound ps) (b.bound ps) = comparing a b := by
  simp only [comparing, affinity?_bound, explicitCollation?_bound, collation?_bound]

theorem callCollation_allBound (ts : List (Term CellRef)) :
    callCollation (allBound ps ts) = callCollation ts := by
  have hfind : (allBound ps ts).findSome? collation? = ts.findSome? collation? := by
    induction ts with
    | nil => rfl
    | cons t ts ih => rw [allBound, List.findSome?_cons, List.findSome?_cons, collation?_bound, ih]
  rw [callCollation, callCollation, hfind]

/-- A term has the value that it has with values in the place of its parameters. -/
theorem eval_bound (r : Option StoredRow) (t : Term CellRef) :
    (t.bound ps).eval qs r = t.eval ps r := by
  -- on the terms together with the lists of terms in them
  induction t using Term.rec
    (motive_2 := fun ts => evalAll qs r (allBound ps ts) = evalAll ps r ts) with
  | literal | column | parameter | countRows => rfl
  | negate t ih | complement t ih | not t ih => simp only [bound, eval, ih]
  | binary op a b iha ihb => simp only [bound, eval, iha, ihb, comparing_bound]
  | among t ts ih ihs => simp only [bound, eval, ih, ihs, affinity?_bound, collation?_bound]
  | like t p iht ihp => simp only [bound, eval, iht, ihp]
  | call f ts ih => simp only [bound, eval, ih, callCollation_allBound]
  | collate t c ih => exact ih
  | nil => rfl
  | cons t ts ih ihs => simp only [allBound, evalAll, ih, ihs]

/-- Names are resolved beside the parameters. -/
theorem resolve_bound (source : Option Table) (gathers : Bool) (t : NamedTerm) :
    (t.bound ps).resolve source gathers = (t.resolve source gathers).map (bound ps) := by
  induction t using Term.rec
    (motive_2 := fun ts => ∀ gathers, resolveAll source gathers (allBound ps ts) =
      (resolveAll source gathers ts).map (allBound ps)) generalizing gathers with
  | literal | parameter => rfl
  | countRows => cases gathers <;> rfl
  | column c =>
    simp only [bound, resolve]
    cases source.bind (·.cellRef? c) with
    | some s => rfl
    | none => cases c.constant? <;> rfl
  | negate t ih | complement t ih | not t ih =>
    simp only [bound, resolve, ih]
    cases t.resolve source gathers <;> rfl
  | binary op a b iha ihb =>
    simp only [bound, resolve, iha, ihb]
    cases a.resolve source gathers with
    | error e => rfl
    | ok a => cases b.resolve source gathers <;> rfl
  | among t ts ih ihs =>
    simp only [bound, resolve, ih, ihs]
    cases t.resolve source gathers with
    | error e => rfl
    | ok t => cases resolveAll source gathers ts <;> rfl
  | like t p iht ihp =>
    simp only [bound, resolve, iht, ihp]
    cases t.resolve source gathers with
    | error e => rfl
    | ok t => cases p.resolve source gathers <;> rfl
  | call f ts ih =>
    simp only [bound, resolve, ih, length_allBound]
    cases resolveAll source (gathers && (Function.find? f ts.length).isSome) ts with
    | error e => rfl
    | ok ws =>
      simp only [Except.map, bind, Except.bind, length_allBound]
      cases checkCall gathers f ws.length <;> rfl
  | collate t c ih =>
    simp only [bound, resolve, ih]
    cases t.resolve source gathers with
    | error e => rfl
    | ok t => cases (Collation.ofName? c).isSome <;> rfl
  | nil => rfl
  | cons t ts ih ihs =>
    rename_i gathers
    simp only [allBound, resolveAll, ih, ihs]
    cases t.resolve source gathers with
    | error e => rfl
    | ok t => cases resolveAll source gathers ts <;> rfl

/-- What a term is worth on a row of a table. -/
def worth (source : Option Table) (r : Option StoredRow) (ps : List Datum) (t : NamedTerm) :
    Except Fault Datum := do
  (← t.resolve source false).eval ps r

/-- A term is worth what it is with values in the place of its parameters. -/
theorem worth_bound (source : Option Table) (r : Option StoredRow) (t : NamedTerm) :
    (t.bound ps).worth source r [] = t.worth source r ps := by
  rw [worth, worth, resolve_bound]
  cases t.resolve source false with
  | error e => rfl
  | ok w => exact eval_bound r w

/-- A name is resolved to a term that has the value. -/
structure Yields (source : Option Table) (r : Option StoredRow) (ps : List Datum)
    (t : NamedTerm) (w : Term CellRef) (d : Datum) : Prop where
  resolves : t.resolve source false = .ok w
  value : w.eval ps r = .ok d

theorem worth_ok_iff {source : Option Table} {r : Option StoredRow} {t : NamedTerm} {d : Datum} :
    t.worth source r ps = .ok d ↔ ∃ w, Yields source r ps t w d := by
  rw [worth, except_bind_ok]
  exact exists_congr fun w => ⟨fun h => ⟨h.1, h.2⟩, fun h => ⟨h.resolves, h.value⟩⟩

/-- Several terms, one after the other. -/
inductive YieldsAll (source : Option Table) (r : Option StoredRow) (ps : List Datum) :
    List NamedTerm → List (Term CellRef) → List Datum → Prop
  | nil : YieldsAll source r ps [] [] []
  | cons {t : NamedTerm} {w : Term CellRef} {d : Datum} {ts : List NamedTerm}
      {ws : List (Term CellRef)} {ds : List Datum} (h : Yields source r ps t w d)
      (hs : YieldsAll source r ps ts ws ds) : YieldsAll source r ps (t :: ts) (w :: ws) (d :: ds)

section Yields

variable {source : Option Table} {r : Option StoredRow} {t u : NamedTerm} {w v : Term CellRef}
  {a b : Datum} {ts : List NamedTerm} {ws : List (Term CellRef)} {ds : List Datum}

theorem YieldsAll.resolves (h : YieldsAll source r ps ts ws ds) :
    resolveAll source false ts = .ok ws := by
  induction h with
  | nil => rfl
  | cons h _ ih =>
    rw [resolveAll, h.resolves, ih]
    rfl

theorem YieldsAll.values (h : YieldsAll source r ps ts ws ds) : evalAll ps r ws = .ok ds := by
  induction h with
  | nil => rfl
  | cons h _ ih =>
    rw [evalAll, h.value, ih]
    rfl

theorem YieldsAll.lengths (h : YieldsAll source r ps ts ws ds) :
    ws.length = ts.length ∧ ds.length = ts.length := by
  induction h with
  | nil => exact ⟨rfl, rfl⟩
  | cons _ _ ih => exact ⟨congrArg (· + 1) ih.1, congrArg (· + 1) ih.2⟩

theorem yields_literal (d : Datum) : Yields source r ps (literal d) (literal d) d := ⟨rfl, rfl⟩

theorem yields_parameter (n : Nat) :
    Yields source r ps (parameter n) (parameter n) (boundTo ps n) := ⟨rfl, rfl⟩

/-- An operator that binds more strongly than the connectives has both operands. -/
theorem Yields.binary (op : Operator) (hop : 4 ≤ op.strength) (ht : Yields source r ps t w a)
    (hu : Yields source r ps u v b) :
    Yields source r ps (binary op t u) (binary op w v) (op.apply (comparing w v) a b) where
  resolves := by
    rw [resolve, ht.resolves, hu.resolves]
    rfl
  value := by
    -- the connectives need not look at their right operand
    have hand : op ≠ .and := by
      rintro rfl
      exact absurd hop (by decide)
    have hor : op ≠ .or := by
      rintro rfl
      exact absurd hop (by decide)
    rw [eval, ht.value, except_bind_ok]
    refine ⟨a, rfl, ?_⟩
    rw [if_neg fun h => hand h.1, if_neg fun h => hor h.1, hu.value]
    rfl

theorem Yields.like (ht : Yields source r ps t w a) (hu : Yields source r ps u v b) :
    Yields source r ps (like t u) (like w v) (a.like b) where
  resolves := by
    rw [resolve, ht.resolves, hu.resolves]
    rfl
  value := by
    rw [eval, ht.value, hu.value]
    rfl

theorem YieldsAll.call {f : String} {g : Function} {d : Datum} (h : YieldsAll source r ps ts ws ds)
    (hf : Function.find? f ts.length = some g) (hg : g.apply (callCollation ws) ds = .ok d) :
    Yields source r ps (call f ts) (call f ws) d where
  resolves := by
    have hcheck : checkCall false f ws.length = .ok () := by
      rw [checkCall, h.lengths.1, hf]
      rfl
    rw [resolve, Bool.false_and, h.resolves, except_bind_ok]
    refine ⟨ws, rfl, ?_⟩
    rw [hcheck]
    rfl
  value := by
    rw [eval, h.values, except_bind_ok]
    refine ⟨ds, rfl, ?_⟩
    rw [h.lengths.2, hf]
    exact hg

/-- A negation is a truth value, and no text. -/
theorem not_yields_text {s : String} : ¬Yields source r ps t.not w (.text s) := by
  intro h
  have hresolves := h.resolves
  rw [resolve] at hresolves
  obtain ⟨w, -, rfl⟩ := except_map_ok.1 hresolves
  have hvalue := h.value
  rw [eval] at hvalue
  obtain ⟨d, -, hd⟩ := except_map_ok.1 hvalue
  have htruth (b? : Option Bool) : (Datum.ofTruth b?).isText = false := by
    rcases b? with - | b
    · rfl
    · cases b <;> decide
  exact Bool.noConfusion ((htruth _).symm.trans (congrArg Datum.isText hd))

end Yields

end Term

/-- As many parameters after `m` are bound as those after `n` are. -/
def BoundAlike (ps qs : List Datum) (m n count : Nat) : Prop :=
  ∀ i < count, Term.boundTo ps (m + i + 1) = Term.boundTo qs (n + i + 1)

namespace BoundAlike

variable {ps qs : List Datum} {m n j k : Nat}

theorem left (h : BoundAlike ps qs m n (j + k)) : BoundAlike ps qs m n j := by
  intro i hi
  exact h i (by omega)

theorem right (h : BoundAlike ps qs m n (j + k)) : BoundAlike ps qs (m + j) (n + j) k := by
  intro i hi
  have hij := h (j + i) (by omega)
  rw [← Nat.add_assoc, ← Nat.add_assoc] at hij
  exact hij

/-- What is bound before and after does not count. -/
theorem append (before ps after : List Datum) :
    BoundAlike (before ++ ps ++ after) ps before.length 0 ps.length := by
  intro i hi
  have hplace : (before ++ ps ++ after)[before.length + i]? = ps[i]? := by
    rw [List.append_assoc, List.getElem?_append_right (Nat.le_add_right _ _),
      Nat.add_sub_cancel_left, List.getElem?_append_left hi]
  rw [Nat.zero_add, Term.boundTo, Term.boundTo, Nat.add_sub_cancel, Nat.add_sub_cancel, hplace]

end BoundAlike

namespace Phrase

open Term

/-- A phrase stands for the same at two places where its parameters are bound alike. -/
theorem bound_term {ps qs : List Datum} (p : Phrase) {m n : Nat}
    (h : BoundAlike ps qs m n p.holes) : (p.term m).bound ps = (p.term n).bound qs := by
  induction p using Phrase.rec
    (motive_2 := fun us => ∀ m n, BoundAlike ps qs m n (holesOfAll us) →
      allBound ps (terms us m) = allBound qs (terms us n)) generalizing m n with
  | name | literal => rfl
  | hole => exact congrArg Term.literal (h 0 Nat.one_pos)
  | not p ih | paren p ih => simp only [term, bound, ih h]
  | binary op a b iha ihb | like a b iha ihb => simp only [term, bound, iha h.left, ihb h.right]
  | among a us iha ihs => simp only [term, bound, iha h.left, ihs _ _ h.right]
  | call f us ih => simp only [term, bound, ih _ _ h]
  | nil => rfl
  | cons p us ih ihs =>
    rename_i m n h
    simp only [terms, allBound, ih h.left, ihs _ _ h.right]

/-- What a phrase is worth depends on nothing but its own parameters. -/
theorem worth_term {ps qs : List Datum} {m n : Nat} (source : Option Table)
    (r : Option StoredRow) {p : Phrase} (h : BoundAlike ps qs m n p.holes) :
    (p.term m).worth source r ps = (p.term n).worth source r qs := by
  rw [← worth_bound source r (p.term m), bound_term p h, worth_bound]

end Phrase

end RowLedger
