import RowLedger.Proofs.Predicate.Alignment
import RowLedger.Proofs.Predicate.Dialects

/-!
Membership in a list of constants, which is called on the list or with the list and the item as two
arguments. Both are one text, in which the item precedes the list; the first binds them in the
order of the text, and the second in the order of its arguments.
-/

namespace RowLedger

/-- Membership with the list and the item as arguments. -/
def Expr.listContains (e : Expr) (vs : List Value) : Expr :=
  .call .contains none [.collection vs, e]

/-! Two lists that commute are repetitions of one list. -/

/-- Some list, a number of times over. -/
def Repeats {α : Type} (zs xs : List α) : Prop := ∃ n, xs = (List.replicate n zs).flatten

namespace Repeats

variable {α : Type} {xs ys zs : List α}

theorem nil : Repeats zs [] := ⟨0, rfl⟩

theorem self : Repeats zs zs := ⟨1, by simp⟩

theorem append (hx : Repeats zs xs) (hy : Repeats zs ys) : Repeats zs (xs ++ ys) := by
  obtain ⟨m, rfl⟩ := hx
  obtain ⟨n, rfl⟩ := hy
  exact ⟨m + n, by rw [List.replicate_add, List.flatten_append]⟩

theorem comm (hx : Repeats zs xs) (hy : Repeats zs ys) : xs ++ ys = ys ++ xs := by
  obtain ⟨m, rfl⟩ := hx
  obtain ⟨n, rfl⟩ := hy
  rw [← List.flatten_append, ← List.flatten_append, ← List.replicate_add, ← List.replicate_add,
    Nat.add_comm]

end Repeats

/-- One of two lists that commute is the start of the other, and commutes with the rest of it. -/
theorem exists_repeats {α : Type} :
    ∀ xs ys : List α, xs ++ ys = ys ++ xs → ∃ zs, Repeats zs xs ∧ Repeats zs ys
  | [], ys, _ => ⟨ys, .nil, .self⟩
  | xs, [], _ => ⟨xs, .self, .nil⟩
  | x :: xs, y :: ys, h => by
    rcases List.append_eq_append_iff.1 h with ⟨rest, hys, hys'⟩ | ⟨rest, hxs, hxs'⟩
    · obtain ⟨zs, hx, hrest⟩ := exists_repeats (x :: xs) rest (hys.symm.trans hys')
      exact ⟨zs, hx, hys ▸ hx.append hrest⟩
    · obtain ⟨zs, hrest, hy⟩ := exists_repeats rest (y :: ys) (hxs'.symm.trans hxs)
      exact ⟨zs, hxs ▸ hy.append hrest, hy⟩
termination_by xs ys => xs.length + ys.length
decreasing_by
  · have := congrArg List.length hys
    simp only [List.length_append, List.length_cons] at this ⊢
    omega
  · have := congrArg List.length hxs
    simp only [List.length_append, List.length_cons] at this ⊢
    omega

theorem append_comm_iff {α : Type} {xs ys : List α} :
    xs ++ ys = ys ++ xs ↔ ∃ zs, Repeats zs xs ∧ Repeats zs ys :=
  ⟨exists_repeats xs ys, fun ⟨_, hx, hy⟩ => hx.comm hy⟩

namespace Compile

variable {t : Mapping} {d : Dialect} {hint hint' : String} {vs : List Value} {e : Expr}

/-! A hint counts by its base name. -/

section Hints

variable (h : baseName hint = baseName hint')
include h

theorem draw_congr : draw hint = draw hint' := by
  funext s
  rw [draw, draw, drawName, drawName, h]

theorem elements_congr (vs : List Value) : elements hint vs = elements hint' vs := by
  induction vs with
  | nil => rfl
  | cons v vs ih => rw [elements, elements, draw_congr h, ih]

end Hints

mutual

theorem fragment_congr : ∀ (e : Expr) {hint hint' : String}, baseName hint = baseName hint' →
    fragment t d hint e = fragment t d hint' e
  | .column name, _, _, _ => by simp only [fragment]
  | .constant v, _, _, h => by simp only [fragment, constant, draw_congr h]
  | .collection vs, _, _, h => by simp only [fragment, collection, elements_congr h]
  | .binary op a b, _, _, h => by simp only [fragment, fragment_congr a h]
  | .not e, _, _, h => by simp only [fragment, fragment_congr e h]
  | .convert e k, _, _, h => by simp only [fragment, fragment_congr e h]
  | .conditional _ _ _, _, _, _ => by simp only [fragment]
  -- without a receiver the arguments have the hint of the call
  | .call m none as, _, _, h => by
    simp only [fragment, receiverFragment, pure_bind, argFragments_congr _ as h]
  | .call m (some e) as, _, _, h => by
    simp only [fragment, receiverFragment, fragment_congr e h, bind_assoc, pure_bind]

theorem argFragments_congr : ∀ (count : Nat) (as : List Expr) {hint hint' : String},
    baseName hint = baseName hint' →
    argFragments t d hint count as = argFragments t d hint' count as
  | 0, _, _, _, _ => by simp only [argFragments]
  | _ + 1, [], _, _, _ => by simp only [argFragments]
  | count + 1, e :: es, _, _, h => by
    simp only [argFragments, fragment_congr e h, argFragments_congr count es h]

end

/-! A list is marks alone, which are no part of a name. -/

/-- The marks of some parameters as a list. -/
def marks (ps : List Param) : Sql :=
  Sql.parenthesized (Sql.joined "," (ps.map fun p => [.hole p.name]))

theorem mem_joined {between : String} {ss : List Sql} {p : Piece} (h : p ∈ Sql.joined between ss) :
    p = .word between ∨ ∃ s ∈ ss, p ∈ s := by
  induction ss using Sql.joined.induct with
  | case1 => cases h
  | case2 s => exact .inr ⟨s, List.mem_singleton_self s, h⟩
  | case3 s s' rest ih =>
    rw [Sql.joined, List.mem_append, List.mem_cons] at h
    rcases h with h | h | h
    · exact .inr ⟨s, List.mem_cons_self, h⟩
    · exact .inl h
    · rcases ih h with h | ⟨s, hs, hp⟩
      · exact .inl h
      · exact .inr ⟨s, List.mem_cons_of_mem _ hs, hp⟩

theorem baseName_marks (ps : List Param) :
    baseName (Dialect.sqlite.render (marks ps)) = "p" := by
  have hmark : ∀ p ∈ marks ps, ∃ c, (Dialect.sqlite.renderPiece p).toList = [c] ∧
      ¬(c.isAlphanum || c = '_') = true := by
    intro p hp
    rw [marks, Sql.parenthesized, List.mem_append, List.mem_cons, List.mem_singleton] at hp
    rcases hp with (rfl | hp) | rfl
    · exact ⟨'(', rfl, by decide⟩
    · rcases mem_joined hp with rfl | ⟨s, hs, hp⟩
      · exact ⟨',', rfl, by decide⟩
      · obtain ⟨q, -, rfl⟩ := List.mem_map.1 hs
        cases List.mem_singleton.1 hp
        exact ⟨'?', (rfl : "?".toList = ['?']), by decide⟩
    · exact ⟨')', rfl, by decide⟩
  have hnone : (Dialect.sqlite.render (marks ps)).toList.filter
      (fun c => c.isAlphanum || c = '_') = [] := by
    rw [List.filter_eq_nil_iff, Dialect.render, String.toList_join]
    intro c hc
    obtain ⟨_, hs, hc⟩ := List.mem_flatMap.1 hc
    obtain ⟨p, hp, rfl⟩ := List.mem_map.1 hs
    obtain ⟨c', heq, hno⟩ := hmark p hp
    rw [heq, List.mem_singleton] at hc
    exact hc ▸ hno
  rw [baseName, hnone]
  rfl

theorem fragment_marks (ps : List Param) (e : Expr) :
    fragment t .sqlite (Dialect.sqlite.render (marks ps)) e = fragment t .sqlite "" e :=
  fragment_congr e (baseName_marks ps)

/-! The two calls. Both compile the list before the item. -/

theorem collection_eq (vs : List Value) :
    collection vs hint = do
      let ps ← elements hint vs
      return { sql := marks ps, params := ps } := rfl

/-- The call has no mode, and compiles its receiver and all of its arguments. -/
theorem fragment_contains (r : Option Expr) (as : List Expr) :
    fragment t d hint (.call .contains r as) = (do
      let receiver ← receiverFragment t d hint r
      let argHint := match receiver with
        | some f => d.render f.sql
        | none => hint
      let args ← argFragments t d argHint as.length as
      applied d .contains none ((r.map Expr.isCollection).getD false) receiver args) := by
  have hmode : modeOf? .contains as = .ok none := by simp [modeOf?]
  simp only [fragment, hmode]
  rfl

theorem fragment_listContains :
    fragment t d hint (e.listContains vs) = do
      let ls ← elements hint vs
      let item ← fragment t d hint e
      return { sql := membership item.sql (marks ls), params := ls ++ item.params } := by
  simp only [Expr.listContains, fragment_contains, receiverFragment, List.length_cons,
    List.length_nil, argFragments, fragment, collection_eq, bind_assoc, pure_bind]
  simp [applied, liftM_ok]

theorem fragment_isIn :
    fragment t .sqlite hint (e.isIn vs) = do
      let ls ← elements hint vs
      let item ← fragment t .sqlite "" e
      return { sql := membership item.sql (marks ls), params := item.params ++ ls } := by
  simp only [Expr.isIn, fragment_contains, receiverFragment, List.length_cons, List.length_nil,
    argFragments, fragment, collection_eq, bind_assoc, pure_bind, fragment_marks]
  rfl

theorem opened_listContains : (e.listContains vs).opened = e.opened.listContains vs := by
  simp only [Expr.listContains, Expr.opened, Expr.openedReceiver, Expr.openedArgs]

theorem opened_isIn : (e.isIn vs).opened = e.opened.isIn vs := by
  simp only [Expr.isIn, Expr.opened, Expr.openedReceiver, Expr.openedArgs]

/-- The parameters of the list, and after them the item. -/
def listAndItem (t : Mapping) (vs : List Value) (e : Expr) :
    Except Error (List Param × Fragment) := do
  let (ls, s) ← (elements "" vs).run []
  let (item, _) ← (fragment t .sqlite "" e).run s
  return (ls, item)

theorem listAndItem_ok {ls : List Param} {item : Fragment}
    (h : listAndItem t vs e = .ok (ls, item)) :
    List.Forall₂ Param.Binds vs ls ∧ Compiles t .sqlite e item := by
  obtain ⟨⟨ls, s⟩, hls, h⟩ := except_bind_ok.1 h
  obtain ⟨⟨item, s'⟩, hitem, h⟩ := except_bind_ok.1 h
  cases h
  exact ⟨Compiles.elements_bound hls, _, _, _, hitem⟩

theorem compile_listContains_eq :
    compile (e.listContains vs) t .sqlite = do
      let (ls, item) ← listAndItem t vs e.opened
      return ⟨membership item.sql (marks ls), ls ++ item.params⟩ := by
  simp only [compile, opened_listContains, fragment_listContains, listAndItem, StateT.run_bind,
    StateT.run_pure, bind_assoc, pure_bind]

theorem compile_isIn_eq :
    compile (e.isIn vs) t .sqlite = do
      let (ls, item) ← listAndItem t vs e.opened
      return ⟨membership item.sql (marks ls), item.params ++ ls⟩ := by
  simp only [compile, opened_isIn, fragment_isIn, listAndItem, StateT.run_bind,
    StateT.run_pure, bind_assoc, pure_bind]

end Compile

open Compile in
/-- Membership in a list of constants compiles for SQLite in both forms or in neither, with one
error. The text is the same, the item before the list; called on the list it binds the item's values
before the list's, and with two arguments after them. So the values agree exactly if those of the
item and those of the list are repetitions of one list, such as when one of the two binds none. -/
theorem compile_listContains (t : Mapping) (vs : List Value) (e : Expr) :
    (∃ err, compile (e.listContains vs) t .sqlite = .error err ∧
      compile (e.isIn vs) t .sqlite = .error err) ∨
    ∃ ls f, List.Forall₂ Param.Binds vs ls ∧ Compiles t .sqlite e.opened f ∧
      compile (e.listContains vs) t .sqlite =
        .ok ⟨membership f.sql (marks ls), ls ++ f.params⟩ ∧
      compile (e.isIn vs) t .sqlite = .ok ⟨membership f.sql (marks ls), f.params ++ ls⟩ ∧
      (bound (ls ++ f.params) = bound (f.params ++ ls) ↔
        ∃ xs, Repeats xs (bound ls) ∧ Repeats xs (bound f.params)) := by
  rw [compile_listContains_eq, compile_isIn_eq]
  cases h : listAndItem t vs e.opened with
  | error err => exact .inl ⟨err, rfl, rfl⟩
  | ok p =>
    obtain ⟨ls, item⟩ := p
    obtain ⟨hls, hitem⟩ := listAndItem_ok h
    refine .inr ⟨ls, item, hls, hitem, rfl, rfl, ?_⟩
    rw [bound_append, bound_append, append_comm_iff]

open Compile in
example :
    let item := Expr.replace (.column "text") (.constant (.text "x")) (.constant (.text "y"))
    (compile (item.listContains [.text "a", .text "b"]) Samples.notes .sqlite).map
      (fun c => bound c.params) = .ok [.text "a", .text "b", .text "x", .text "y"] := rfl

end RowLedger
