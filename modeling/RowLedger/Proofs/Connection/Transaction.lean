import RowLedger.Proofs.Connection.Enclosing
import RowLedger.Proofs.Ledger.Recording

/-! An action in a transaction of its own: its work is kept whole, or undone. -/

namespace RowLedger

/-- A rollback succeeds. It brings back the tables from before the transaction, if one is open. -/
def Setup.Undoes {σ : Type} (s : Setup σ) (view : σ → Contents) : Prop :=
  ∀ w, view (s.driver.execute s.rollbackText [] w).2 =
    ⟨(view w).saved.getD (view w).tables, none⟩

namespace Act

variable {σ α : Type} {s : Setup σ} {view : σ → Contents} {ts : List Tracked} {c : Connection σ}
  {M : Meaning} {R : Refusals} {known : List Mapping}

/-- A statement without parameters that belongs to no table. -/
theorem run_marker (hf : s.Faithful view M .main (Tracked.mappings ts)) (cmd : TableCommand)
    (hmapping : cmd.mapping? = none) (hparams : cmd.params = []) (hfits : cmd.Fits (view c.world))
    (htaken : ¬Refusals.main.command (view c.world) cmd) :
    ∃ r w, s.driver.execute (s.config.dialect.render (cmd.sql s.config.dialect)) [] c.world =
        (.ok r, w) ∧ cmd.Effect M (view c.world) r.rowsAffected (view w) := by
  have h := hf.executes cmd (by simp [hmapping]) hfits
  rw [hparams] at h
  generalize s.driver.execute _ _ _ = reply at h
  cases h with
  | done h => exact ⟨_, _, rfl, h⟩
  | refused h => exact absurd h htaken

/-- Work that can be undone. -/
theorem run_saveTables (hf : s.Faithful view M .main (Tracked.mappings ts))
    (h : Steady s view ts c) (hdepth : c.depth = 0) (hsaved : (view c.world).saved = none) :
    ∃ (name : String) (c' : Connection σ), save.run s c = (.ok name, c') ∧
      Savepoint.depth? name = some 0 ∧ Steady s view ts c' ∧
      view c'.world = { view c.world with saved := some (view c.world).tables } ∧
      c'.depth = 1 ∧ c'.guidsDrawn = c.guidsDrawn := by
  obtain ⟨r, w, hr, hw⟩ := run_marker (c := c) hf (.save (nextName s c)) rfl rfl hsaved id
  have hrun := run_save_ok (s := s) (c := c) (r := r) (w := w) (by rw [hdepth]; exact hr)
  refine ⟨_, _, hrun, ?_, h.of_eq rfl rfl rfl ?_ id, hw, by rw [hdepth], rfl⟩
  · exact Savepoint.depth?_name_eq_zero.2 hdepth
  · rw [hw]

/-- The outermost savepoint is released by a statement. -/
theorem exists_releaseText (s : Setup σ) (name : String) :
    ∃ sql, s.config.dialect.release? name 0 = some sql ∧
      s.releaseText? name 0 = some (s.config.dialect.render sql) := by
  obtain ⟨sql, hsql⟩ : ∃ sql, s.config.dialect.release? name 0 = some sql := by
    cases s.config.dialect <;> exact ⟨_, rfl⟩
  exact ⟨sql, hsql, by rw [Setup.releaseText?, hsql, Option.map_some]⟩

theorem run_releaseTables (hf : s.Faithful view M .main (Tracked.mappings ts))
    (h : Steady s view ts c) (hdepth : c.depth = 1) (hsaved : (view c.world).saved ≠ none)
    {name : String} (hname : Savepoint.depth? name = some 0) :
    ∃ c' : Connection σ, (release name).run s c = (.ok (), c') ∧ Steady s view ts c' ∧
      view c'.world = { view c.world with saved := none } ∧
      c'.depth = 0 ∧ c'.guidsDrawn = c.guidsDrawn := by
  obtain ⟨r, w, hr, hw⟩ := run_marker (c := c) hf (.release name) rfl rfl hsaved id
  obtain ⟨sql, hsql, htext⟩ := exists_releaseText s name
  rw [TableCommand.sql, hsql] at hr
  rcases run_release_cases hname (c := c) (s := s) (by omega) with ⟨hnone, -⟩ | ⟨sql', hsql', hrun⟩
  · cases htext.symm.trans hnone
  · obtain rfl := Option.some.inj (htext.symm.trans hsql')
    rcases hrun with ⟨r', w', hr', hrun⟩ | ⟨e, w', he, -⟩
    · obtain ⟨-, rfl⟩ := Prod.mk.inj (hr.symm.trans hr')
      refine ⟨_, hrun, h.of_eq rfl rfl rfl ?_ id, hw, rfl, rfl⟩
      rw [hw]
    · cases hr.symm.trans he

/-- A rollback brings the tables of the beginning back. -/
theorem rolledBack_tables (hf : s.Faithful view M .main (Tracked.mappings ts))
    {c₀ : Connection σ} (h₀ : Steady s view ts c₀) (h : Steady s view ts c)
    (hsaved : (view c.world).saved = some (view c₀.world).tables) :
    Steady s view ts (rolledBack s c) ∧
      view (rolledBack s c).world = ⟨(view c₀.world).tables, none⟩ := by
  obtain ⟨r, w, hr, hw⟩ := run_marker (c := c) hf .rollback rfl rfl
    (by rw [TableCommand.Fits, hsaved]; exact Option.some_ne_none _) id
  rw [TableCommand.Effect, hsaved] at hw
  have hworld : (rolledBack s c).world = w := congrArg Prod.snd hr
  have hview : view (rolledBack s c).world = ⟨(view c₀.world).tables, none⟩ := by
    rw [hworld, hw]
    rfl
  refine ⟨⟨h.uses, h.commands, h.subscribers, fun t ht => ?_, fun hhas => ?_, fun hready => ?_⟩,
    hview⟩
  · rw [hview]
    exact h₀.tables t ht
  · rw [hview] at hhas ⊢
    exact h₀.ledger hhas
  · cases hready

/-- The action starts with the tables as they are. Its rows stay if it succeeds, and the ones before
come back if it fails. -/
theorem run_runInTransaction (hf : s.Faithful view M .main (Tracked.mappings ts))
    (h : Steady s view ts c) (hdepth : c.depth = 0) (hsaved : (view c.world).saved = none)
    (body : Act σ α) :
    ∃ c₁, Steady s view ts c₁ ∧ (view c₁.world).tables = (view c.world).tables ∧
      ∀ r c₂ rows, body.run s c₁ = (r, c₂) → Leaves s view ts c₁ c₂ rows →
        ∃ c', (runInTransaction body).run s c = (r, c') ∧
          match r with
          | .ok _ => Leaves s view ts c c' rows
          | .error _ => Leaves s view ts c c' (view c.world).tables.rows := by
  obtain ⟨name, c₁, h₁, hname, hs₁, hv₁, hd₁, hg₁⟩ := run_saveTables hf h hdepth hsaved
  refine ⟨c₁, hs₁, by rw [hv₁], fun r c₂ rows h₂ k₂ => ?_⟩
  rw [run_runInTransaction_eq, h₁]
  dsimp only
  rw [h₂]
  cases r with
  | ok a =>
    obtain ⟨c₃, h₃, hs₃, hv₃, hd₃, hg₃⟩ := run_releaseTables hf k₂.steady (k₂.depth.trans hd₁)
      (by rw [k₂.saved, hv₁]; exact Option.some_ne_none _) hname
    dsimp only
    rw [h₃]
    refine ⟨c₃, rfl, hs₃, ?_, ?_, ?_, ?_, fun hhas => ?_, fun t ht => ?_⟩
    · rw [hv₃, ← k₂.rows]
    · rw [hv₃, hsaved]
    · rw [hd₃, hdepth]
    · rw [hg₃, k₂.drawn, hg₁]
    · rw [hv₃]
      exact k₂.ledger (by rw [hv₁]; exact hhas)
    · rw [hv₃, k₂.columns t ht, hv₁]
  | error e =>
    obtain ⟨hs₃, hv₃⟩ := rolledBack_tables hf h k₂.steady (by rw [k₂.saved, hv₁])
    refine ⟨rolledBack s c₂, rfl, hs₃, ?_, ?_, hdepth.symm, ?_, fun hhas => ?_, fun t _ => ?_⟩
    · rw [hv₃]
    · rw [hv₃, hsaved]
    · exact k₂.drawn.trans hg₁
    · rw [hv₃]
      exact hhas
    · rw [hv₃]

/-! The same where every statement but the rollback may be refused. -/

theorem rolledBack_view (hu : s.Undoes view) (c : Connection σ) :
    view (rolledBack s c).world =
      ⟨(view c.world).saved.getD (view c.world).tables, none⟩ := hu c.world

/-- The connection once a transaction is open. -/
def opened (c : Connection σ) (w : σ) : Connection σ :=
  { c with world := w, depth := 1, savepointsDrawn := c.savepointsDrawn + 1 }

/-- A first savepoint is opened, or the call fails and leaves no transaction. -/
theorem run_save_first (hf : s.Faithful view M R known) (hu : s.Undoes view)
    (hdepth : c.depth = 0) (hsaved : (view c.world).saved = none) :
    (∃ name w, save.run s c = (.ok name, opened c w) ∧ Savepoint.depth? name = some 0 ∧
      view w = ⟨(view c.world).tables, some (view c.world).tables⟩) ∨
    ∃ e c', save.run s c = (.error e, c') ∧ c'.depth = 0 ∧ view c'.world = view c.world := by
  have hexec := hf.executes (w := c.world) (.save (nextName s c)) (by simp [TableCommand.mapping?])
    hsaved
  change Carried view c.world _ _ (s.driver.execute (s.savepointText (nextName s c) 0) [] c.world)
    at hexec
  rw [← hdepth] at hexec
  rcases run_save_cases s c with ⟨r, w, hr, hrun⟩ | ⟨e, w, he, hrun⟩
  · rw [hr] at hexec
    obtain ⟨hw⟩ := hexec
    have hname : Savepoint.depth? (nextName s c) = some 0 :=
      Savepoint.depth?_name_eq_zero.2 hdepth
    refine .inl ⟨nextName s c, w, ?_, hname, hw⟩
    rw [hrun, hdepth]
    rfl
  · rw [he] at hexec
    obtain _ | ⟨-, hw⟩ := hexec
    have hback := rolledBack_view hu
      { c with world := w, savepointsDrawn := c.savepointsDrawn + 1 }
    dsimp only at hback
    rw [hw, hsaved, Option.getD_none] at hback
    refine .inr ⟨_, _, hrun, ?_, ?_⟩ <;> unfold unopened <;> split
    · rfl
    · exact hdepth
    · rw [hback, ← hsaved]
    · exact hw

/-- The outermost savepoint is released and the tables stay, or the call fails and leaves them to a
rollback. -/
theorem run_release_first (hf : s.Faithful view M R known) (hu : s.Undoes view)
    (hdepth : c.depth = 1) {before : Tables} (hsaved : (view c.world).saved = some before)
    {name : String} (hname : Savepoint.depth? name = some 0) :
    (∃ c', (release name).run s c = (.ok (), c') ∧ c'.depth = 0 ∧
      view c'.world = ⟨(view c.world).tables, none⟩) ∨
    ∃ e c', (release name).run s c = (.error e, c') ∧
      view (rolledBack s c').world = ⟨before, none⟩ := by
  obtain ⟨sql, hsql, htext⟩ := exists_releaseText s name
  have hexec := hf.executes (w := c.world) (.release name) (by simp [TableCommand.mapping?])
    (by rw [TableCommand.Fits, hsaved]; exact Option.some_ne_none _)
  rw [TableCommand.sql, hsql] at hexec
  change Carried view c.world _ _ (s.driver.execute (s.config.dialect.render sql) [] c.world)
    at hexec
  have hlt : 0 < c.depth := by rw [hdepth]; exact Nat.one_pos
  rcases run_release_cases (s := s) hname hlt with ⟨hnone, -⟩ | ⟨sql', hsql', hrun⟩
  · cases htext.symm.trans hnone
  · obtain rfl := Option.some.inj (htext.symm.trans hsql')
    rcases hrun with ⟨r, w, hr, hrun⟩ | ⟨e, w, he, hrun⟩
    · rw [hr] at hexec
      obtain ⟨hw⟩ := hexec
      exact .inl ⟨_, hrun, rfl, hw⟩
    · rw [he] at hexec
      obtain _ | ⟨-, hw⟩ := hexec
      refine .inr ⟨_, _, hrun, ?_⟩
      unfold unreleased
      split
      · rw [rolledBack_view hu, rolledBack_view hu]
        dsimp only
        rw [hw, hsaved]
        rfl
      · rw [rolledBack_view hu]
        dsimp only
        rw [hw, hsaved]
        rfl

/-- Whatever is refused, a transaction of its own leaves the tables as its action left them if it
succeeds, and as they were if it fails, and no transaction is open afterwards. -/
theorem run_runInTransaction_cases (hf : s.Faithful view M R known) (hu : s.Undoes view)
    (hdepth : c.depth = 0) (hsaved : (view c.world).saved = none) {body : Act σ α}
    {P : α → Tables → Prop}
    (hbody : ∀ w, view w = ⟨(view c.world).tables, some (view c.world).tables⟩ →
      ∃ r c₂, body.run s (opened c w) = (r, c₂) ∧ c₂.depth = 1 ∧
        (view c₂.world).saved = some (view c.world).tables ∧
        ∀ a, r = .ok a → P a (view c₂.world).tables) :
    ∃ r c', (runInTransaction body).run s c = (r, c') ∧ c'.depth = 0 ∧
      (view c'.world).saved = none ∧
      match r with
      | .ok a => P a (view c'.world).tables
      | .error _ => (view c'.world).tables = (view c.world).tables := by
  rw [run_runInTransaction_eq]
  rcases run_save_first hf hu hdepth hsaved with ⟨name, w, hsave, hname, hw⟩ | ⟨e, c', hsave, hd, hv⟩
  · obtain ⟨r, c₂, hrun, hd₂, hs₂, hP⟩ := hbody w hw
    rw [hsave]
    dsimp only
    rw [hrun]
    cases r with
    | error e =>
      have hback := rolledBack_view hu c₂
      rw [hs₂] at hback
      exact ⟨_, _, rfl, rfl, by rw [hback], by rw [hback]; rfl⟩
    | ok a =>
      dsimp only
      rcases run_release_first hf hu hd₂ hs₂ hname with
        ⟨c₃, hrelease, hd₃, hv₃⟩ | ⟨e, c₃, hrelease, hback⟩
      · rw [hrelease]
        refine ⟨_, c₃, rfl, hd₃, by rw [hv₃], ?_⟩
        rw [hv₃]
        exact hP a rfl
      · rw [hrelease]
        exact ⟨_, _, rfl, rfl, by rw [hback], by rw [hback]⟩
  · rw [hsave]
    exact ⟨_, c', rfl, hd, by rw [hv, hsaved], by rw [hv]⟩

end Act

end RowLedger
