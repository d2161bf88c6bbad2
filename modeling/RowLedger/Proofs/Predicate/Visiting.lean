import RowLedger.Proofs.Predicate.Shape

/-!
The nodes of a predicate that are compiled. An operator with a three-way comparison on its left is
read as the operator between the texts that are compared, so that nothing else of the comparison is
looked at, nor what stood on the right. Of a prefix or suffix test with a mode the mode is no part.
-/

namespace RowLedger

/-- Is a text looked for at one end of another? A second argument is then a comparison mode. -/
def Method.TestsEnd (m : Method) : Prop := m = .startsWith ∨ m = .endsWith

instance (m : Method) : Decidable m.TestsEnd := inferInstanceAs (Decidable (_ ∨ _))

namespace Expr

/-- What a node is read as instead. -/
def readAs? : Expr → Option Expr
  | binary op (call .compareString none [a, b, _]) _ => some (binary op a b)
  | _ => none

/-- The arguments of a call but for a mode. -/
def valuesOf (m : Method) : List Expr → List Expr
  | [a, b] => if m.TestsEnd then [a] else [a, b]
  | as => as

/-- All that stands directly below a node. -/
def children : Expr → List Expr
  | column _ | constant _ | collection _ => []
  | binary _ a b => [a, b]
  | not e | convert e _ => [e]
  | call _ r as => r.toList ++ as
  | conditional c a b => [c, a, b]

/-- What is compiled with a node, and before it. Of a conditional nothing is. -/
def parts : Expr → List Expr
  | column _ | constant _ | collection _ | conditional _ _ _ => []
  | binary _ a b => [a, b]
  | not e | convert e _ => [e]
  | call m r as => r.toList ++ valuesOf m as

/-- The second predicate is a node that is compiled for the first. -/
inductive Visits : Expr → Expr → Prop
  | readAs {e e' n : Expr} (h : e.readAs? = some e') (hn : Visits e' n) : Visits e n
  | self {e : Expr} (h : e.readAs? = none) : Visits e e
  | part {e p n : Expr} (h : e.readAs? = none) (hp : p ∈ e.parts) (hn : Visits p n) : Visits e n

variable {e e' n p a b : Expr} {op : BinaryOp} {m : Method} {as : List Expr}

theorem eq_of_readAs? (h : e.readAs? = some e') :
    ∃ op a b x y, e = binary op (call .compareString none [a, b, x]) y ∧ e' = binary op a b := by
  unfold readAs? at h
  split at h
  · cases h
    exact ⟨_, _, _, _, _, rfl, rfl⟩
  · cases h

theorem visits_of_readAs? (h : e.readAs? = some e') : e.Visits n ↔ e'.Visits n := by
  constructor
  · intro hv
    cases hv with
    | readAs h' hn =>
      rw [h] at h'
      cases h'
      exact hn
    | self h' => rw [h] at h'; cases h'
    | part h' => rw [h] at h'; cases h'
  · exact .readAs h

theorem visits_of_none (h : e.readAs? = none) :
    e.Visits n ↔ n = e ∨ ∃ p ∈ e.parts, p.Visits n := by
  constructor
  · intro hv
    cases hv with
    | readAs h' => rw [h] at h'; cases h'
    | self => exact .inl rfl
    | part _ hp hn => exact .inr ⟨_, hp, hn⟩
  · rintro (rfl | ⟨p, hp, hn⟩)
    · exact .self h
    · exact .part h hp hn

theorem mem_of_mem_valuesOf (h : a ∈ valuesOf m as) : a ∈ as := by
  unfold valuesOf at h
  split at h
  · split at h
    · exact List.mem_of_mem_take (i := 1) h
    · exact h
  · exact h

/-! Nodes get smaller along the reading, so that there is an induction along it. -/

theorem sizeOf_readAs? (h : e.readAs? = some e') : sizeOf e' < sizeOf e := by
  obtain ⟨op, a, b, x, y, rfl, rfl⟩ := eq_of_readAs? h
  simp
  omega

theorem sizeOf_child (h : p ∈ e.children) : sizeOf p < sizeOf e := by
  cases e with
  | column | constant | collection => cases h
  | binary | conditional =>
    simp only [children, List.mem_cons, List.not_mem_nil, or_false] at h
    simp only [binary.sizeOf_spec, conditional.sizeOf_spec]
    rcases h with rfl | rfl | rfl <;> omega
  | not e | convert e k =>
    obtain rfl := List.mem_singleton.1 h
    simp <;> omega
  | call m r as =>
    rcases List.mem_append.1 h with h | h
    · obtain rfl := Option.mem_toList.1 h
      simp
      omega
    · have := List.sizeOf_lt_of_mem h
      simp
      omega

theorem mem_children_of_mem_parts (h : p ∈ e.parts) : p ∈ e.children := by
  cases e with
  | conditional => cases h
  | call m r as =>
    rcases List.mem_append.1 h with h | h
    · exact List.mem_append_left _ h
    · exact List.mem_append_right _ (mem_of_mem_valuesOf h)
  | _ => exact h

theorem sizeOf_part (h : p ∈ e.parts) : sizeOf p < sizeOf e :=
  sizeOf_child (mem_children_of_mem_parts h)

@[elab_as_elim]
theorem reading_induction {P : Expr → Prop}
    (readAs : ∀ e e', e.readAs? = some e' → P e' → P e)
    (node : ∀ e, e.readAs? = none → (∀ p ∈ e.parts, P p) → P e) (e : Expr) : P e := by
  cases h : e.readAs? with
  | some e' =>
    have := sizeOf_readAs? h
    exact readAs e e' h (reading_induction readAs node e')
  | none =>
    apply node e h
    intro p hp
    have := sizeOf_part hp
    exact reading_induction readAs node p
termination_by sizeOf e

/-! Opening a predicate goes along its reading, and keeps the values that nodes carry. -/

theorem opened_of_readAs? (h : e.readAs? = some e') : e.opened = e'.opened := by
  obtain ⟨op, a, b, x, y, rfl, rfl⟩ := eq_of_readAs? h
  rfl

theorem openedReceiver_eq (r : Option Expr) : openedReceiver r = r.map opened := by
  cases r <;> rfl

theorem openedArgs_eq (as : List Expr) : openedArgs as = as.map opened := by
  induction as with
  | nil => rfl
  | cons a as ih => rw [openedArgs, ih, List.map_cons]

theorem opened_binary (h : (binary op a b).readAs? = none) :
    (binary op a b).opened = binary op a.opened b.opened := by
  have hplain : operands a.opened b.opened = (a.opened, b.opened) := by
    cases a with
    | call m r as =>
      -- three arguments without a receiver after opening are three before
      simp only [opened]
      unfold operands
      split
      · next hcall =>
        obtain ⟨rfl, hr, has⟩ := call.inj hcall
        cases r with
        | some e => cases hr
        | none =>
          have hlength := congrArg List.length has
          rw [openedArgs_eq, List.length_map] at hlength
          obtain ⟨x, y, z, rfl⟩ := List.length_eq_three.1 hlength
          cases h
      · rfl
    | _ => rfl
  rw [opened, hplain]

theorem valuesOf_openedArgs (m : Method) (as : List Expr) :
    valuesOf m (openedArgs as) = (valuesOf m as).map opened := by
  rw [openedArgs_eq]
  match as with
  | [] | [_] => rfl
  | [a, b] =>
    simp only [List.map_cons, List.map_nil, valuesOf]
    split <;> rfl
  | _ :: _ :: _ :: _ => rfl

theorem carried?_opened (e : Expr) : e.opened.carried? = e.carried? := by
  induction e using carried?.induct with
  | case1 v => rfl
  | case2 e ih => rw [opened, carried?, carried?, ih]
  | case3 e k ih => rw [opened, carried?, carried?, ih]
  | case4 e hc hn hk =>
    cases e with
    | constant v => exact absurd rfl (hc v)
    | not e => exact absurd rfl (hn e)
    | convert e k => exact absurd rfl (hk e k)
    | _ => rfl

theorem isParameter_opened (e : Expr) : e.opened.isParameter = e.isParameter := by
  induction e using isParameter.induct with
  | case1 v => rfl
  | case2 e k ih => exact ih
  | case3 e hc hk =>
    cases e with
    | constant v => exact absurd rfl (hc v)
    | convert e k => exact absurd rfl (hk e k)
    | _ => rfl

theorem isNullParameter_opened (e : Expr) : e.opened.isNullParameter = e.isNullParameter := by
  rw [isNullParameter, isNullParameter, carried?_opened, isParameter_opened]

end Expr

end RowLedger
