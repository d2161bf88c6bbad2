import RowLedger.Proofs.Predicate.Acceptance
import RowLedger.Proofs.Predicate.Alignment

/-!
Predicates that cannot be compiled, because of a conditional or of an unknown column in them. Such
a node is refused wherever it stands, a comparison mode included, but in an operand that opening a
three-way comparison drops: what stands there is never looked at.
-/

namespace RowLedger

namespace Expr

/-- What opening a three-way comparison on the left of an operator drops: its flag, and what it was
compared with. -/
def dropped : Expr → List Expr
  | binary _ (call .compareString none [_, _, flag]) b => [flag, b]
  | _ => []

/-- The second predicate stands somewhere in the first, at any depth. -/
inductive Within : Expr → Expr → Prop
  | here (e : Expr) : Within e e
  | child {e p n : Expr} (hp : p ∈ e.children) (hn : Within p n) : Within e n

/-- The second predicate stands somewhere in the first where nothing is dropped. -/
inductive Keeps : Expr → Expr → Prop
  | here (e : Expr) : Keeps e e
  | readAs {e e' n : Expr} (h : e.readAs? = some e') (hn : Keeps e' n) : Keeps e n
  | child {e p n : Expr} (h : e.readAs? = none) (hp : p ∈ e.children) (hn : Keeps p n) : Keeps e n

/-- A node that no predicate can have: a conditional, or a column that the table lacks. -/
def Unsupported (t : Mapping) : Expr → Prop
  | conditional _ _ _ => True
  | column name => ∀ c, t.resolve name ≠ .ok c
  | _ => False

variable {t : Mapping} {e e' n p : Expr}

theorem Unsupported.readAs?_eq (h : n.Unsupported t) : n.readAs? = none := by
  cases n with
  | column | conditional => rfl
  | _ => exact h.elim

theorem Unsupported.not_fits (h : n.Unsupported t) : ¬n.Fits t := by
  cases n with
  | column name =>
    rintro ⟨c, hc⟩
    exact h c hc
  | conditional => exact id
  | _ => exact h.elim

/-- A child that is not compiled belongs to a conditional, or is a comparison mode. -/
theorem mem_parts_of_mem_children (h : p ∈ e.children) :
    p ∈ e.parts ∨ (∃ c a b, e = conditional c a b) ∨
      ∃ m r a, m.TestsEnd ∧ e = call m r [a, p] := by
  cases e with
  | conditional c a b => exact .inr (.inl ⟨c, a, b, rfl⟩)
  | call m r as =>
    rcases List.mem_append.1 h with h | h
    · exact .inl (List.mem_append_left _ h)
    · by_cases hp : p ∈ valuesOf m as
      · exact .inl (List.mem_append_right _ hp)
      · unfold valuesOf at hp
        split at hp
        · split at hp
          · next hm =>
            simp only [List.mem_cons, List.not_mem_nil, or_false] at h hp
            rcases h with rfl | rfl
            · exact absurd rfl hp
            · exact .inr (.inr ⟨m, r, _, hm, rfl⟩)
          · exact absurd h hp
        · exact absurd h hp
  | _ => exact .inl h

/-- A comparison mode is a constant, in which no other node stands. -/
theorem not_callFits_of_keeps {m : Method} {r : Option Expr} {a : Expr} (hm : m.TestsEnd)
    (hn : p.Keeps n) (hu : n.Unsupported t) : ¬CallFits m r [a, p] := by
  intro hfits
  obtain ⟨c, hc⟩ := hfits.mode hm rfl
  cases p with
  | constant v =>
    cases hn with
    | here => exact hu
    | readAs h => cases h
    | child _ hp => cases hp
  | _ => cases hc

/-- What is kept and cannot be had stands below a node that does not fit, if not in its place. -/
theorem Keeps.exists_not_fits (hn : e.Keeps n) (hu : n.Unsupported t) :
    ∃ m, e.Visits m ∧ ¬m.Fits t := by
  induction hn with
  | here e => exact ⟨e, .self hu.readAs?_eq, hu.not_fits⟩
  | readAs h _ ih =>
    obtain ⟨m, hm, hfits⟩ := ih hu
    exact ⟨m, .readAs h hm, hfits⟩
  | @child e p n h hp hn ih =>
    obtain hp | ⟨c, a, b, rfl⟩ | ⟨m, r, a, hm, rfl⟩ := mem_parts_of_mem_children hp
    · obtain ⟨m, hm, hfits⟩ := ih hu
      exact ⟨m, .part h hp hm, hfits⟩
    · exact ⟨_, .self rfl, id⟩
    · exact ⟨_, .self h, not_callFits_of_keeps hm hn hu⟩

/-- What a three-way comparison on the left of an operator compares is kept, all else is dropped. -/
theorem within_of_readAs? (h : e.readAs? = some e') (hn : e.Within n) (hu : n.Unsupported t) :
    e'.Within n ∨ ∃ o ∈ e.dropped, o.Within n := by
  obtain ⟨op, a, b, x, y, rfl, rfl⟩ := eq_of_readAs? h
  cases hn with
  | here => exact hu.elim
  | child hp hn =>
    simp only [children, List.mem_cons, List.not_mem_nil, or_false] at hp
    rcases hp with rfl | rfl
    · cases hn with
      | here => exact hu.elim
      | child hp hn =>
        simp only [children, Option.toList_none, List.nil_append, List.mem_cons,
          List.not_mem_nil, or_false] at hp
        rcases hp with rfl | rfl | rfl
        · exact .inl (.child List.mem_cons_self hn)
        · exact .inl (.child (List.mem_cons_of_mem _ List.mem_cons_self) hn)
        · exact .inr ⟨_, List.mem_cons_self, hn⟩
    · exact .inr ⟨_, List.mem_cons_of_mem _ List.mem_cons_self, hn⟩

/-- What stands in a predicate is kept, or stands in what is dropped of something that is kept. -/
theorem Within.keeps_or_dropped (hn : e.Within n) (hu : n.Unsupported t) :
    e.Keeps n ∨ ∃ b, e.Keeps b ∧ ∃ o ∈ b.dropped, o.Within n := by
  -- reading a node leads to one that is no part of it, but smaller
  induction hsize : sizeOf e using Nat.strong_induction_on generalizing e with
  | h size ih =>
    subst hsize
    cases h : e.readAs? with
    | some e' =>
      rcases within_of_readAs? h hn hu with hn | hdropped
      · rcases ih _ (sizeOf_readAs? h) hn rfl with hk | ⟨b, hb, hdropped⟩
        · exact .inl (.readAs h hk)
        · exact .inr ⟨b, .readAs h hb, hdropped⟩
      · exact .inr ⟨e, .here e, hdropped⟩
    | none =>
      cases hn with
      | here => exact .inl (.here n)
      | child hp hn =>
        rcases ih _ (sizeOf_child hp) hn rfl with hk | ⟨b, hb, hdropped⟩
        · exact .inl (.child h hp hk)
        · exact .inr ⟨b, .child h hp hb, hdropped⟩

end Expr

/-- A predicate in which a conditional or an unknown column stands fails to compile, unless the node
stands in operands that are dropped, and nowhere else. -/
theorem compile_unsupported {t : Mapping} {e n : Expr} (hn : e.Within n) (hu : n.Unsupported t)
    (d : Dialect) :
    (∃ err, compile e t d = .error err) ∨
      ¬e.Keeps n ∧ ∃ b, e.Keeps b ∧ ∃ o ∈ b.dropped, o.Within n := by
  by_cases hk : e.Keeps n
  · left
    cases hc : compile e t d with
    | error err => exact ⟨err, rfl⟩
    | ok c =>
      obtain ⟨m, hm, hfits⟩ := hk.exists_not_fits hu
      have hall := (Compile.exists_compile_iff d).1 ⟨c, hc⟩
      exact absurd ((Compile.compilable_opened_iff e).1 hall m hm) hfits
  · exact .inr ⟨hk, (hn.keeps_or_dropped hu).resolve_left hk⟩

namespace Samples

def choice : Expr :=
  .conditional (.column "text") (.constant (.bool true)) (.constant (.bool false))

/-- Is the comparison of the text with a name equal to what is chosen? -/
def comparedToChoice : Expr :=
  (Expr.compareString (.column "text") (.constant (.text "Bob")) false).eq choice

/-- The choice is dropped with what the comparison was to be equal to. -/
theorem comparedToChoice_compiles :
    comparedToChoice.Within choice ∧ choice.Unsupported notes ∧
    (∃ c, compile comparedToChoice notes .sqlite = .ok c ∧
      Dialect.sqlite.render c.sql = "(\"Text\" = ?)") ∧
    ¬comparedToChoice.Keeps choice ∧
    ∃ b, comparedToChoice.Keeps b ∧ ∃ o ∈ b.dropped, o.Within choice := by
  have hwithin : comparedToChoice.Within choice :=
    .child (List.mem_cons_of_mem _ List.mem_cons_self) (.here _)
  have hunsupported : choice.Unsupported notes := trivial
  have htext : (compile comparedToChoice notes .sqlite).map
      (fun c => Dialect.sqlite.render c.sql) = .ok "(\"Text\" = ?)" := rfl
  obtain ⟨c, hc, hrender⟩ := except_map_ok.1 htext
  refine ⟨hwithin, hunsupported, ⟨c, hc, hrender⟩, ?_⟩
  rcases compile_unsupported hwithin hunsupported .sqlite with ⟨err, herr⟩ | hdropped
  · rw [hc] at herr
    cases herr
  · exact hdropped

end Samples

end RowLedger
