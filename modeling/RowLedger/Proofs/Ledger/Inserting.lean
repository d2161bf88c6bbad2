import RowLedger.Proofs.Codec
import RowLedger.Proofs.Ledger.Sound

/-! Inserts into tracked tables keep the ledger sound. -/

namespace RowLedger

variable {σ : Type} {s : Setup σ} {view : σ → Contents} {M : Meaning} {ts : List Tracked}

/-- Tables are tracked through a faithful driver, and no two rows of a table have the same primary
key. -/
structure Tracking (s : Setup σ) (view : σ → Contents) (M : Meaning) (ts : List Tracked) :
    Prop where
  apart : Tracked.Apart ts
  lawful : M.Lawful (Tracked.mappings ts)
  faithful : s.Faithful view M .main (Tracked.mappings ts)
  keys (w : σ) : ∀ t ∈ ts, t.mapping.key ≠ none → ∀ v : String → SqlValue,
    ((view w).tables.rows t.mapping.table).countP (fun r =>
      (t.mapping.columns.filter Column.primaryKey).all fun c =>
        M.same t.mapping.table c.name (r c.name) (v c.name)) ≤ 1

/-- An identifier that was not drawn before. -/
def Setup.Fresh (s : Setup σ) (n : Nat) : Prop := ∀ i < n, s.guid i ≠ s.guid n

namespace Ledger

/-- Between two calls, outside of transactions, the ledger is sound. -/
structure Upheld (s : Setup σ) (view : σ → Contents) (ts : List Tracked)
    (updated : List SqlValue) (c : Connection σ) : Prop where
  steady : Steady s view ts c
  kept : Kept s.guid c.guidsDrawn ts (view c.world).tables.rows updated
  depth : c.depth = 0
  saved : (view c.world).saved = none

namespace Upheld

variable {c c' : Connection σ} {updated updated' : List SqlValue}

theorem leaves (h : Upheld s view ts updated c) {rows : String → List Record}
    (k : Leaves s view ts c c' rows) (hkept : Kept s.guid c.guidsDrawn ts rows updated') :
    Upheld s view ts updated' c' := by
  refine ⟨k.steady, ?_, k.depth.trans h.depth, k.saved.trans h.saved⟩
  rw [k.rows, k.drawn]
  exact hkept

theorem still (h : Upheld s view ts updated c)
    (k : Leaves s view ts c c' (view c.world).tables.rows) : Upheld s view ts updated c' :=
  h.leaves k h.kept

theorem drawing (h : Upheld s view ts updated c) {n : Nat} (hn : c.guidsDrawn ≤ n) :
    Upheld s view ts updated { c with guidsDrawn := n } where
  steady := h.steady.of_eq rfl rfl rfl rfl id
  kept := h.kept.mono hn
  depth := h.depth
  saved := h.saved

end Upheld

end Ledger

namespace Act

variable {c : Connection σ}

theorem run_drawGuid : (drawGuid : Act σ Guid).run s c =
    (.ok (s.guid c.guidsDrawn), { c with guidsDrawn := c.guidsDrawn + 1 }) := rfl

theorem run_fillKey (m : Mapping) (e : Entity) :
    ∃ r n, (fillKey m e).run s c = (r, { c with guidsDrawn := n }) ∧ c.guidsDrawn ≤ n ∧
      ∀ e', r = .ok e' → e'.type = e.type := by
  rw [fillKey]
  cases m.key with
  | none => exact ⟨.ok e, c.guidsDrawn, rfl, Nat.le_refl _, fun _ h => by cases h; rfl⟩
  | some i =>
    dsimp only
    split
    · refine ⟨m.set e i (.guid (s.guid c.guidsDrawn)), c.guidsDrawn + 1, ?_, Nat.le_succ _, ?_⟩
      · rw [run_bind_ok _ run_drawGuid, run_ofExcept]
      · exact fun e' h => Mapping.type_of_set h
    · exact ⟨.ok e, c.guidsDrawn, rfl, Nat.le_refl _, fun _ h => by cases h; rfl⟩

theorem run_identify {m : Mapping} (hm : isLedger m = false) (e : Entity) :
    (identify m e).run s c =
      ((m.set e m.sync (.guid (s.guid c.guidsDrawn))).map (·, s.guid c.guidsDrawn),
        { c with guidsDrawn := c.guidsDrawn + 1 }) := by
  rw [identify, hm]
  simp only [Bool.false_eq_true, if_false]
  rw [run_bind_ok _ run_drawGuid, run_bind, run_ofExcept]
  cases m.set e m.sync (.guid (s.guid c.guidsDrawn)) <;> rfl

/-- The identifier of a new row is the one drawn next. -/
theorem run_prepare {m : Mapping} (hm : isLedger m = false) (e : Entity) :
    ∃ r n, (prepare m e).run s c = (r, { c with guidsDrawn := n }) ∧ c.guidsDrawn < n ∧
      ∀ e' g, r = .ok (e', g) → g = s.guid c.guidsDrawn ∧ e'.type = e.type := by
  let c₁ : Connection σ := { c with guidsDrawn := c.guidsDrawn + 1 }
  rw [prepare, run_bind, run_identify hm]
  cases hset : m.set e m.sync (.guid (s.guid c.guidsDrawn)) with
  | error err => exact ⟨.error err, c.guidsDrawn + 1, rfl, Nat.lt_succ_self _, by simp⟩
  | ok e₁ =>
    obtain ⟨r, n, hfill, hn, htype⟩ := run_fillKey (s := s) (c := c₁) m e₁
    refine ⟨r.map (·, s.guid c.guidsDrawn), n, ?_, hn, fun e' g hr => ?_⟩
    · change (fillKey m e₁ >>= fun e => pure (e, s.guid c.guidsDrawn)).run s c₁ = _
      rw [run_bind, hfill]
      cases r <;> rfl
    · cases r with
      | error err => cases hr
      | ok e₂ =>
        cases hr
        exact ⟨rfl, (htype _ rfl).trans (Mapping.type_of_set hset)⟩

/-- The parameter of a position among those that are bound. -/
theorem mem_of_mapM {m : Mapping} {v : Nat → Value} {positions : List Nat} {params : List Param}
    (h : positions.mapM (fun i => m.param i (v i)) = .ok params) {i : Nat} (hi : i ∈ positions) :
    ∃ p ∈ params, m.param i (v i) = .ok p := by
  have hparams : List.Forall₂ (fun p i => m.param i (v i) = .ok p) params positions :=
    (forall₂_of_mapM h).flip
  exact exists_of_mem_right hparams hi

/-- A stored row has the identifier that it was to be stored with. -/
theorem run_storeRow (T : Tracking s view M ts) (h : Steady s view ts c) {t : Tracked} (ht : t ∈ ts)
    {e : Entity} (he : e.type = t.type) (g : Guid) (ignoring : Bool) :
    ∃ r c', (store t.mapping e g (if ignoring then .ignore else .insert)).run s c = (r, c') ∧
      ((∃ res row, r = .ok res ∧ res.rowsAffected = 1 ∧
          row t.mapping.syncColumn.name = g.stored ∧
          Leaves s view ts c c' (Function.update (view c.world).tables.rows t.mapping.table
            ((view c.world).tables.rows t.mapping.table ++ [row]))) ∨
        Leaves s view ts c c' (view c.world).tables.rows ∧
          ∀ res, r = .ok res → res.rowsAffected = 0) := by
  have hknown : (e.type, t.mapping) ∈ Tracked.known ts := by
    rw [he]
    exact Tracked.mem_known ht
  cases hparams : t.mapping.insertColumns.mapM (fun i => t.mapping.param i
      (if i = t.mapping.sync then .guid g else t.mapping.get e i)) with
  | error err =>
    obtain ⟨c₁, h₁, k₁⟩ :=
      run_insertCommand T.apart h hknown (if ignoring then .ignore else .insert)
    refine ⟨.error err, c₁, ?_, .inr ⟨k₁, by simp⟩⟩
    cases ignoring <;> exact run_store_unbound h₁ hparams
  | ok params =>
    obtain ⟨c₁, k₁, h₁⟩ := run_store T.apart h hknown g ignoring hparams
    have hnames := names_of_mapM
      (fun i (hi : i ∈ t.mapping.insertColumns) => Mapping.isSome_of_mem_positionsWhere hi) hparams
    have hfits : (TableCommand.insert t.mapping ignoring params).Fits (view c₁.world) :=
      ⟨k₁.steady.tables t ht, hnames⟩
    rcases run_command (c := c₁) T.faithful (.insert t.mapping ignoring params)
      (fun m hm => Option.mem_some.1 hm ▸ Tracked.mem_mappings (Tracked.mem_known ht)) hfits with
      ⟨res, w, hr, heffect⟩ | ⟨err, w, hr, hw, -⟩
    · refine ⟨.ok res, { c₁ with world := w }, h₁.trans hr, ?_⟩
      obtain ⟨hone, row, hrow, hw⟩ | ⟨-, hzero, hw⟩ := heffect
      · have k₂ := Leaves.withRows k₁.steady hw
        rw [k₁.rows] at k₂
        refine .inl ⟨res, row, rfl, hone, ?_, k₁.trans k₂⟩
        obtain ⟨p, hp, hparam⟩ := mem_of_mapM hparams t.wellFormed.sync_mem_insertColumns
        rw [if_pos rfl, Mapping.param, t.wellFormed.sync] at hparam
        cases hparam
        exact hrow _ hp
      · exact .inr ⟨k₁.still (.sameView k₁.steady hw), fun res' h => by cases h; exact hzero⟩
    · exact ⟨.error (.storage err), { c₁ with world := w }, h₁.trans hr,
        .inr ⟨k₁.still (.sameView k₁.steady hw), by simp⟩⟩

/-- An insert is entered once its row is there. -/
theorem run_insert (T : Tracking s view M ts) {updated : List SqlValue}
    (h : Ledger.Upheld s view ts updated c) {t : Tracked} (ht : t ∈ ts) {e : Entity}
    (he : e.type = t.type) (ignoring : Bool) :
    ∃ e' r c', (insert e (if ignoring then .ignore else .insert)).run s c = (.ok (e', r), c') ∧
      c.guidsDrawn < c'.guidsDrawn ∧ (s.Fresh c.guidsDrawn →
        Ledger.Upheld s view ts updated c' ∨ ∃ err, r = .error err ∧ err.IsUnreadable) := by
  obtain ⟨c₁, h₁, k₁⟩ := run_mapping T.apart h.steady (t := e.type) (by
    rw [he]
    exact Tracked.mem_known ht)
  obtain ⟨r, n, hp, hn, hprepared⟩ := run_prepare (s := s) (c := c₁) t.not_isLedger e
  have hu := (h.still k₁).drawing (Nat.le_of_lt hn)
  rw [k₁.drawn] at hn
  rw [insert, run_bind_attempt _ h₁]
  dsimp only
  rcases r with err | ⟨e', g⟩
  · rw [run_bind_ok _ (run_insertRow_unprepared hp)]
    exact ⟨e, .error err, _, rfl, hn, fun _ => .inl hu⟩
  · obtain ⟨rfl, htype⟩ := hprepared e' g rfl
    obtain ⟨res, c₂, hst, hstored⟩ :=
      run_storeRow T hu.steady ht (htype.trans he) (s.guid c₁.guidsDrawn) ignoring
    have hdrawn {c' : Connection σ} (h : c'.guidsDrawn = n) : c.guidsDrawn < c'.guidsDrawn := by
      rw [h]
      exact hn
    rcases hstored with ⟨res, row, rfl, hone, hrow, k₂⟩ | ⟨k₂, hzero⟩
    · -- The row is there, so only the key that was counted up can fail now.
      have hne : res.rowsAffected ≠ 0 := by rw [hone]; decide
      have hrun := run_insertRow hp hst
      rw [if_neg hne] at hrun
      cases hkey : t.mapping.withGeneratedKey e' res.lastId with
      | error err =>
        rw [hkey] at hrun
        rw [run_bind_ok _ hrun]
        exact ⟨e', .error err, c₂, rfl, hdrawn k₂.drawn,
          fun _ => .inr ⟨err, rfl, Mapping.reads_withGeneratedKey _ _ _ _ hkey⟩⟩
      | ok e'' =>
        rw [hkey, hone] at hrun
        obtain ⟨entry, c₃, h₃, henters, k₃⟩ := run_recordChange T.apart T.lawful T.faithful
          k₂.steady t (s.guid c₁.guidsDrawn) .insert
        have hentered : (attempt (do
            recordChange t.mapping (some (s.guid c₁.guidsDrawn)) .insert
            return 0 + 1)).run s c₂ = (.ok (.ok 1), c₃) := by
          rw [run_attempt, run_bind_ok _ h₃]
          rfl
        rw [run_bind_ok _ hrun]
        dsimp only
        rw [run_bind_ok _ hentered]
        have hledger : (view c₂.world).tables.rows Ledger.tableName =
            (view c₁.world).tables.rows Ledger.tableName := by
          rw [k₂.rows, Function.update_of_ne t.table_ne.symm]
        rw [hledger, k₂.rows] at k₃
        refine ⟨e'', .ok 1, c₃, rfl, hdrawn (k₂.trans k₃).drawn, fun hfresh => .inl ?_⟩
        rw [← k₁.drawn] at hfresh hn
        have hkept := (h.still k₁).kept.inserted T.apart hfresh ht hrow henters
        exact hu.leaves (k₂.trans k₃) (hkept.mono hn)
    · rcases res with err | res
      · rw [run_bind_ok _ (run_insertRow_unstored hp hst)]
        exact ⟨e', .error err, c₂, rfl, hdrawn k₂.drawn, fun _ => .inl (hu.still k₂)⟩
      · have hrun := run_insertRow hp hst
        rw [if_pos (hzero res rfl)] at hrun
        rw [run_bind_ok _ hrun]
        exact ⟨e', .ok 0, c₂, rfl, hdrawn k₂.drawn, fun _ => .inl (hu.still k₂)⟩

end Act

end RowLedger
