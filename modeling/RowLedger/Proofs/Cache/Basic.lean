import RowLedger.Cache
import RowLedger.Proofs.Outcome

/-! What a cache has for a key after a value was stored. -/

namespace RowLedger.Cache

variable {κ α ε : Type} [DecidableEq κ] {c : Cache κ α} {j k : κ} {a : α} {h : Handle α}

theorem mem_of_find? (hfind : c.find? k = some h) : (k, h) ∈ c.entries := by
  obtain ⟨before, after, heq, -⟩ := List.lookup_eq_some_iff.1 hfind
  rw [heq]
  exact List.mem_append_right _ List.mem_cons_self

theorem find?_put_self : (c.put k a).2.find? k = some (c.put k a).1 := List.lookup_cons_self

theorem find?_put_of_ne (hne : j ≠ k) : (c.put k a).2.find? j = c.find? j := by
  change List.lookup j ((k, _) :: _) = _
  rw [List.lookup_cons, beq_false_of_ne hne]
  exact lookup_filter_ne hne _

theorem keep_of_find? (hfind : c.find? k = some h) : c.keep k a = (h, c) := by
  rw [keep, hfind]

theorem keep_of_none (hfind : c.find? k = none) : c.keep k a = c.put k a := by
  rw [keep, hfind]

theorem find?_keep_self : (c.keep k a).2.find? k = some (c.keep k a).1 := by
  cases hfind : c.find? k with
  | some h => rw [keep_of_find? hfind, hfind]
  | none =>
    rw [keep_of_none hfind]
    exact find?_put_self

theorem find?_keep_of_ne (hne : j ≠ k) : (c.keep k a).2.find? j = c.find? j := by
  cases hfind : c.find? k with
  | some h => rw [keep_of_find? hfind]
  | none =>
    rw [keep_of_none hfind]
    exact find?_put_of_ne hne

/-- A value is kept that is not at odds with one that is there. -/
theorem value_keep (hk : ∀ h, c.find? k = some h → h.value = a) : (c.keep k a).1.value = a := by
  cases hfind : c.find? k with
  | some h =>
    rw [keep_of_find? hfind]
    exact hk h hfind
  | none =>
    rw [keep_of_none hfind]
    rfl

/-- What is there stays. -/
theorem find?_keep_of_find? (hfind : c.find? j = some h) : (c.keep k a).2.find? j = some h := by
  by_cases hj : j = k
  · subst hj
    rw [keep_of_find? hfind]
    exact hfind
  · rw [find?_keep_of_ne hj, hfind]

/-- What there is after a value was kept was there, or is that value. -/
theorem of_find?_keep (hfind : (c.keep k a).2.find? j = some h) :
    c.find? j = some h ∨ j = k ∧ h.value = a := by
  by_cases hj : j = k
  · subst hj
    rw [find?_keep_self] at hfind
    cases hk : c.find? j with
    | some g =>
      rw [keep_of_find? hk] at hfind
      exact .inl hfind
    | none =>
      rw [keep_of_none hk] at hfind
      exact .inr ⟨rfl, (Option.some.inj hfind) ▸ rfl⟩
  · rw [find?_keep_of_ne hj] at hfind
    exact .inl hfind

theorem mem_entries_put {e : κ × Handle α} (he : e ∈ (c.put k a).2.entries) :
    e ∈ c.entries ∨ e.1 = k ∧ e.2.value = a := by
  rcases List.mem_cons.1 he with rfl | he
  · exact .inr ⟨rfl, rfl⟩
  · exact .inl (List.mem_filter.1 he).1

theorem mem_entries_keep {e : κ × Handle α} (he : e ∈ (c.keep k a).2.entries) :
    e ∈ c.entries ∨ e.1 = k ∧ e.2.value = a := by
  cases hk : c.find? k with
  | some g =>
    rw [keep_of_find? hk] at he
    exact .inl he
  | none =>
    rw [keep_of_none hk] at he
    exact mem_entries_put he

theorem serve_ok : c.serve k (.ok a : Except ε α) = .ok (c.keep k a) := by
  cases hk : c.find? k with
  | some g => rw [serve, hk, keep_of_find? hk]
  | none =>
    rw [serve, hk]
    rfl

theorem serve_of_find? (hfind : c.find? k = some h) (build : Except ε α) :
    c.serve k build = .ok (h, c) := by
  rw [serve, hfind]

theorem serve_of_none (hfind : c.find? k = none) (build : Except ε α) :
    c.serve k build = build.map (c.put k) := by
  rw [serve, hfind]
  cases build with
  | error e => rfl
  | ok a => exact congrArg Except.ok (keep_of_none hfind)

end RowLedger.Cache
