import Mathlib.Data.List.Forall2

/-! Opening computations that may fail, and looking things up in lists. -/

namespace RowLedger

variable {ε α β : Type}

theorem except_bind_ok {x : Except ε α} {f : α → Except ε β} {b : β} :
    (x >>= f) = .ok b ↔ ∃ a, x = .ok a ∧ f a = .ok b := by
  cases x <;> simp [bind, Except.bind]

theorem except_map_ok {x : Except ε α} {f : α → β} {b : β} :
    x.map f = .ok b ↔ ∃ a, x = .ok a ∧ f a = b := by
  cases x <;> simp [Except.map]

theorem forall₂_of_mapM {f : α → Except ε β} {as : List α} {bs : List β}
    (h : as.mapM f = .ok bs) : List.Forall₂ (fun a b => f a = .ok b) as bs := by
  induction as generalizing bs with
  | nil =>
    cases h
    exact .nil
  | cons a as ih =>
    rw [List.mapM_cons, except_bind_ok] at h
    obtain ⟨b, hb, h⟩ := h
    obtain ⟨bs, hbs, ⟨⟩⟩ := except_bind_ok.1 h
    exact .cons hb (ih hbs)

theorem exists_of_mapM_error {f : α → Except ε β} {as : List α} {e : ε}
    (h : as.mapM f = .error e) : ∃ a ∈ as, f a = .error e := by
  induction as with
  | nil => cases h
  | cons a as ih =>
    rw [List.mapM_cons] at h
    cases ha : f a with
    | error e' =>
      rw [ha] at h
      cases h
      exact ⟨a, List.mem_cons_self, ha⟩
    | ok b =>
      rw [ha] at h
      cases has : as.mapM f with
      | error e' =>
        rw [has] at h
        cases h
        obtain ⟨a', ha', hf⟩ := ih has
        exact ⟨a', List.mem_cons_of_mem a ha', hf⟩
      | ok bs =>
        rw [has] at h
        cases h

theorem exists_of_mem_right {α β : Type} {R : α → β → Prop} {as : List α} {bs : List β} {b : β}
    (h : List.Forall₂ R as bs) (hb : b ∈ bs) : ∃ a ∈ as, R a b := by
  induction h with
  | nil => cases hb
  | cons hr _ ih =>
    rcases List.mem_cons.mp hb with rfl | hb
    · exact ⟨_, List.mem_cons_self, hr⟩
    · obtain ⟨a, ha, hr⟩ := ih hb
      exact ⟨a, List.mem_cons_of_mem _ ha, hr⟩

/-- What no step of a fold changes is the same at its end. -/
theorem foldl_unchanged {γ : Type} {f : β → α → β} {g : β → γ} {as : List α}
    (h : ∀ a ∈ as, ∀ b, g (f b a) = g b) (b : β) : g (as.foldl f b) = g b :=
  List.foldlRecOn (motive := fun b' => g b' = g b) as f rfl fun b' hb a ha => (h a ha b').trans hb

theorem lookup_filter_ne {κ ν : Type} [BEq κ] [LawfulBEq κ] {j k : κ} (h : j ≠ k)
    (es : List (κ × ν)) : (es.filter fun e => e.1 != k).lookup j = es.lookup j := by
  induction es with
  | nil => rfl
  | cons e es ih =>
    by_cases he : e.1 = k
    · have hj : (j == e.1) = false := beq_false_of_ne fun hj => h (hj.trans he)
      rw [List.filter_cons_of_neg (by simpa using he), ih, List.lookup_cons, hj]
    · rw [List.filter_cons_of_pos (by simpa using he), List.lookup_cons, List.lookup_cons, ih]

/-- Where no two elements have a key in common, each is the only one with its key. -/
theorem filter_eq_singleton {κ : Type} [BEq κ] [LawfulBEq κ] {f : α → κ} {as : List α}
    (h : (as.map f).Nodup) {a : α} (ha : a ∈ as) : as.filter (fun b => f b == f a) = [a] := by
  induction as with
  | nil => cases ha
  | cons x as ih =>
    rw [List.map_cons, List.nodup_cons] at h
    rcases List.mem_cons.1 ha with rfl | ha
    · have hnone : as.filter (fun b => f b == f a) = [] := by
        rw [List.filter_eq_nil_iff]
        intro y hy heq
        exact h.1 (List.mem_map.2 ⟨y, hy, beq_iff_eq.1 heq⟩)
      rw [List.filter_cons, if_pos (beq_self_eq_true _), hnone]
    · have hx : ¬(f x == f a) = true := fun heq =>
        h.1 (List.mem_map.2 ⟨a, ha, (beq_iff_eq.1 heq).symm⟩)
      rw [List.filter_cons, if_neg hx, ih h.2 ha]

/-- What a search finds: the first element with a property. -/
theorem findIdx?_eq_some_iff {p : α → Bool} {as : List α} {i : Nat} :
    as.findIdx? p = some i ↔
      (∃ a, as[i]? = some a ∧ p a = true) ∧ ∀ j a, j < i → as[j]? = some a → p a = false := by
  rw [List.findIdx?_eq_some_iff_getElem]
  constructor
  · rintro ⟨hlt, hfound, hfirst⟩
    refine ⟨⟨_, List.getElem?_eq_getElem hlt, hfound⟩, fun j a hj ha => ?_⟩
    obtain ⟨hjlt, rfl⟩ := List.getElem?_eq_some_iff.1 ha
    exact Bool.eq_false_iff.2 (hfirst j hj)
  · rintro ⟨⟨a, ha, hfound⟩, hfirst⟩
    obtain ⟨hlt, rfl⟩ := List.getElem?_eq_some_iff.1 ha
    refine ⟨hlt, hfound, fun j hj => ?_⟩
    exact Bool.eq_false_iff.1 (hfirst j _ hj (List.getElem?_eq_getElem _))

/-- Where at most one element has a property, it has one position. -/
theorem index_eq_of_filter {p : α → Bool} {as : List α}
    (h : (as.filter p).length ≤ 1) {i j : Nat} {a b : α} (hi : as[i]? = some a)
    (hj : as[j]? = some b) (ha : p a = true) (hb : p b = true) : i = j := by
  -- what stands before the later one has none left
  have hlt {i j : Nat} {a b : α} (hi : as[i]? = some a) (hj : as[j]? = some b) (ha : p a = true)
      (hb : p b = true) : ¬i < j := by
    intro hij
    rw [← List.take_append_drop j as, List.filter_append, List.length_append] at h
    have hbefore : a ∈ (as.take j).filter p :=
      List.mem_filter.2 ⟨List.mem_of_getElem? ((List.getElem?_take_of_lt hij).trans hi), ha⟩
    have hafter : b ∈ (as.drop j).filter p := by
      refine List.mem_filter.2 ⟨List.mem_of_getElem? (i := 0) ?_, hb⟩
      rw [List.getElem?_drop, Nat.add_zero, hj]
    have hbefore := List.length_pos_of_mem hbefore
    have hafter := List.length_pos_of_mem hafter
    omega
  exact Nat.le_antisymm (Nat.le_of_not_lt (hlt hj hi hb ha)) (Nat.le_of_not_lt (hlt hi hj ha hb))

end RowLedger
