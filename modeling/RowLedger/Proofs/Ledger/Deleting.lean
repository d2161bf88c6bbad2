import RowLedger.Proofs.Connection.Transaction
import RowLedger.Proofs.Ledger.Updating

/-! Deletions from tracked tables keep the ledger sound. -/

namespace RowLedger

variable {σ : Type} {s : Setup σ} {view : σ → Contents} {M : Meaning} {ts : List Tracked}

theorem filter_not_eq_self {α : Type} {p : α → Bool} {xs : List α} (h : xs.countP p = 0) :
    xs.filter (fun x => !p x) = xs := by
  rw [List.filter_eq_self]
  intro x hx
  rw [Bool.not_eq_true']
  exact eq_false_of_ne_true (List.countP_eq_zero.1 h x hx)

namespace Act

open Ledger (keptApart Upheld)

variable {c : Connection σ}

/-- A deletion removes the rows that fulfil the condition, or it is refused. -/
theorem run_delete_cases {R : Refusals} {known : List Mapping} (hf : s.Faithful view M R known)
    {m : Mapping} (hm : m ∈ known) (hhas : (view c.world).tables.Has m.table)
    (condition : Option Condition) :
    (∃ w, (execCount ((TableCommand.delete m condition).sql s.config.dialect)
        (TableCommand.delete m condition).params).run s c =
          (.ok (((view c.world).tables.rows m.table).countP (M.selects m.table condition)),
            { c with world := w }) ∧
      view w = (view c.world).withRows m.table (((view c.world).tables.rows m.table).filter
        fun r => !M.selects m.table condition r)) ∨
    ∃ err w, (execCount ((TableCommand.delete m condition).sql s.config.dialect)
        (TableCommand.delete m condition).params).run s c =
          (.error (.storage err), { c with world := w }) ∧
      view w = view c.world := by
  rcases run_command (c := c) hf (.delete m condition) (fun n hn => Option.mem_some.1 hn ▸ hm)
    hhas with ⟨res, w, hr, hn, hw⟩ | ⟨err, w, hr, hw, -⟩
  · refine .inl ⟨w, ?_, hw⟩
    rw [← hn]
    exact run_execCount_ok hr
  · exact .inr ⟨err, w, run_execCount_error hr, hw⟩

theorem run_delete (T : Tracking s view M ts) (h : Steady s view ts c) {t : Tracked} (ht : t ∈ ts)
    (condition : Option Condition) :
    (∃ c', (execCount ((TableCommand.delete t.mapping condition).sql s.config.dialect)
        (TableCommand.delete t.mapping condition).params).run s c =
          (.ok (((view c.world).tables.rows t.mapping.table).countP
            (M.selects t.mapping.table condition)), c') ∧
      Leaves s view ts c c' (Function.update (view c.world).tables.rows t.mapping.table
        (((view c.world).tables.rows t.mapping.table).filter fun r =>
          !M.selects t.mapping.table condition r))) ∨
    ∃ err c', (execCount ((TableCommand.delete t.mapping condition).sql s.config.dialect)
        (TableCommand.delete t.mapping condition).params).run s c = (.error (.storage err), c') ∧
      Leaves s view ts c c' (view c.world).tables.rows := by
  rcases run_delete_cases T.faithful (Tracked.mem_mappings (Tracked.mem_known ht)) (h.tables t ht)
    condition with ⟨w, hrun, hw⟩ | ⟨err, w, hrun, hw⟩
  · exact .inl ⟨_, hrun, .withRows h hw⟩
  · exact .inr ⟨err, _, hrun, .sameView h hw⟩

/-- The rows that a condition selects are deleted, and if there were any their deletion is entered
under their identifiers. -/
theorem run_delete_entered (T : Tracking s view M ts) {updated : List SqlValue}
    (h : Upheld s view ts updated c) {t : Tracked} (ht : t ∈ ts) (condition : Option Condition)
    {record : Act σ Unit}
    (hrecord : 0 < ((view c.world).tables.rows t.mapping.table).countP
        (M.selects t.mapping.table condition) →
      ∃ gs : List Guid, (gs.map Guid.stored).Perm ((((view c.world).tables.rows
          t.mapping.table).filter (M.selects t.mapping.table condition)).map
            (· t.mapping.syncColumn.name)) ∧
        ∀ c₁, Steady s view ts c₁ → ∃ es c₂, record.run s c₁ = (.ok (), c₂) ∧
          List.Forall₂ (fun g (e : Record) => e.Enters t.mapping.table g .delete) gs es ∧
          Leaves s view ts c₁ c₂ (Function.update (view c₁.world).tables.rows Ledger.tableName
            (keptApart gs ((view c₁.world).tables.rows Ledger.tableName) ++ es))) :
    ∃ r c', (do
        let count ← execCount ((TableCommand.delete t.mapping condition).sql s.config.dialect)
          (TableCommand.delete t.mapping condition).params
        if 0 < count then record
        return count : Act σ Nat).run s c = (r, c') ∧ Upheld s view ts updated c' := by
  rcases run_delete T h.steady ht condition with ⟨c₁, h₁, k₁⟩ | ⟨err, c₁, h₁, k₁⟩
  · cases hcount : ((view c.world).tables.rows t.mapping.table).countP
        (M.selects t.mapping.table condition) with
    | zero =>
      rw [hcount] at h₁
      rw [filter_not_eq_self hcount, Function.update_eq_self] at k₁
      exact ⟨.ok 0, c₁, run_bind_ok _ h₁, h.still k₁⟩
    | succ n =>
      rw [hcount] at h₁ hrecord
      obtain ⟨gs, hgs, hrecord⟩ := hrecord (Nat.succ_pos n)
      obtain ⟨es, c₂, h₂, hes, k₂⟩ := hrecord c₁ k₁.steady
      -- The deletion from the table left the ledger alone.
      have hledger : (view c₁.world).tables.rows Ledger.tableName =
          (view c.world).tables.rows Ledger.tableName := by
        rw [k₁.rows, Function.update_of_ne t.table_ne.symm]
      rw [hledger, k₁.rows] at k₂
      refine ⟨.ok (n + 1), c₂, ?_, h.leaves (k₁.trans k₂) (h.kept.removed T.apart ht hgs hes)⟩
      rw [run_bind_ok _ h₁, if_pos (Nat.succ_pos n), run_bind_ok _ h₂]
      rfl
  · exact ⟨_, c₁, run_bind_error _ h₁, h.still k₁⟩

/-- A deletion by key is entered for the row that had the key. -/
theorem run_deleteByValue (T : Tracking s view M ts) {updated : List SqlValue}
    (h : Upheld s view ts updated c) {t : Tracked} (ht : t ∈ ts) (v : Value) :
    ∃ r c', (deleteByValue t.mapping v).run s c = (r, c') ∧ Upheld s view ts updated c' := by
  rw [deleteByValue]
  cases hcol : t.mapping.keyColumn? with
  | none => exact ⟨_, c, rfl, h⟩
  | some col =>
    cases hv : v.toSql with
    | error err => exact ⟨.error err, c, rfl, h⟩
    | ok stored =>
      let key : Param := ⟨col.name, stored⟩
      obtain ⟨g, c₁, h₁, k₁, hg⟩ :=
        run_readSync T.faithful h.steady ht key (h.kept.sound.identified ht)
      rw [← k₁.rows] at hg
      have hok {β : Type} (f : SqlValue → Act σ β) :
          (ofExcept (.ok stored) >>= f).run s c = (f stored).run s c := run_bind_ok f rfl
      dsimp only
      rw [hok, run_bind_ok _ h₁]
      refine run_delete_entered T (h.still k₁) ht (some (.keyed key)) fun hpos => ?_
      have hone := T.countP_le_one c₁.world ht hcol (k := key) rfl
      obtain ⟨r₀, hr₀, hfound⟩ := List.countP_pos_iff.1 hpos
      cases g with
      | none =>
        have := hg r₀ hr₀
        rw [show M.holds t.mapping.table (.keyed key) r₀ = true from hfound] at this
        cases this
      | some g =>
        obtain ⟨r, hr, hf, hrg⟩ := hg
        refine ⟨[g], ?_, fun c₂ hs => ?_⟩
        · rw [show M.selects t.mapping.table (some (.keyed key)) =
            M.holds t.mapping.table (.keyed key) from rfl,
            filter_eq_of_countP_le_one hone hr hf, List.map_singleton, List.map_singleton, hrg]
        · obtain ⟨e, c₃, h₃, he, k₃⟩ :=
            run_recordChange T.apart T.lawful T.faithful hs t g .delete
          exact ⟨[e], c₃, h₃, .cons he .nil, k₃⟩

/-- A deletion by a condition is entered for each row that fulfilled it. -/
theorem run_deleteMatching (T : Tracking s view M ts) {updated : List SqlValue}
    (h : Upheld s view ts updated c) {t : Tracked} (ht : t ∈ ts) (condition : Condition) :
    ∃ r c', (deleteMatching t.mapping condition).run s c = (r, c') ∧
      Upheld s view ts updated c' := by
  rw [deleteMatching, t.not_isLedger]
  simp only [Bool.false_eq_true, if_false]
  rcases run_syncGuids T.faithful h.steady ht (some condition) (h.kept.sound.identified ht) with
    ⟨gs, c₁, h₁, hgs, k₁⟩ | ⟨err, c₁, h₁, k₁, -⟩
  · have hu := h.still k₁
    rw [← k₁.rows] at hgs
    have hdistinct : gs.Nodup := by
      refine List.Nodup.of_map _ (hgs.nodup_iff.2 ?_)
      exact (hu.kept.apart t ht).sublist (List.filter_sublist.map _)
    rw [run_bind_ok _ h₁]
    exact run_delete_entered T hu ht (some condition) fun _ =>
      ⟨gs, hgs, fun _ hs => run_recordDeleted T.apart T.lawful T.faithful hs t hdistinct⟩
  · exact ⟨_, c₁, run_bind_error _ h₁, h.still k₁⟩

theorem run_notified (h : Steady s view ts c) (m : Mapping) (n : Nat) :
    ∃ c', (do
        if 0 < n then notify m .delete
        return n : Act σ Nat).run s c = (.ok n, c') ∧
      Leaves s view ts c c' (view c.world).tables.rows := by
  by_cases hn : 0 < n
  · obtain ⟨c', h', k⟩ := run_notify h m .delete
    rw [if_pos hn]
    exact ⟨c', run_bind_ok _ h', k⟩
  · rw [if_neg hn]
    exact ⟨c, rfl, .refl h⟩

/-- After all rows are deleted the ledger has their deletions only. -/
theorem run_deleteAllOf (T : Tracking s view M ts) {updated : List SqlValue}
    (h : Upheld s view ts updated c) {t : Tracked} (ht : t ∈ ts) :
    ∃ r c', (deleteAllOf t.mapping).run s c = (r, c') ∧ Upheld s view ts updated c' := by
  rw [deleteAllOf, t.not_isLedger]
  simp only [Bool.not_false, if_true]
  obtain ⟨c₁, hs₁, htables, hrun⟩ :=
    run_runInTransaction T.faithful h.steady h.depth h.saved (do
      recordDeleteAll t.mapping
      let count ← execCount [.word "delete from ", .name t.mapping.table] []
      if 0 < count then notify t.mapping .delete
      return count)
  have hkept := h.kept
  rw [← htables] at hkept
  obtain ⟨gs, es, c₂, h₂, hgs, hes, k₂⟩ := run_recordDeleteAll T.apart T.lawful T.faithful hs₁ ht
    (hkept.sound.identified ht) (hkept.apart t ht) (fun e he r hr heq =>
      hkept.sound.table_of_mem ht he (heq ▸ List.mem_map_of_mem hr))
  rcases run_delete T k₂.steady ht none with ⟨c₃, h₃, k₃⟩ | ⟨err, c₃, h₃, k₃⟩
  · have hempty : (((view c₂.world).tables.rows t.mapping.table).filter fun r =>
        !M.selects t.mapping.table none r) = [] :=
      List.filter_eq_nil_iff.2 fun _ _ => Bool.not_eq_true _ ▸ rfl
    rw [hempty, k₂.rows, Function.update_comm t.table_ne.symm] at k₃
    obtain ⟨c₄, h₄, k₄⟩ := run_notified k₃.steady t.mapping
      (((view c₂.world).tables.rows t.mapping.table).countP (M.selects t.mapping.table none))
    obtain ⟨c', hc', k⟩ := hrun (.ok _) c₄ _
      ((run_bind_ok _ h₂).trans ((run_bind_ok _ h₃).trans h₄)) ((k₂.trans k₃).still k₄)
    have hdone := hkept.emptied T.apart ht hgs hes
    exact ⟨_, c', hc', h.leaves k hdone⟩
  · obtain ⟨c', hc', k⟩ := hrun (.error (.storage err)) c₃ _
      ((run_bind_ok _ h₂).trans (run_bind_error _ h₃)) (k₂.still k₃)
    exact ⟨_, c', hc', h.still k⟩

end Act

end RowLedger
