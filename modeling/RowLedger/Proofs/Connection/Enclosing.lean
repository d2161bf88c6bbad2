import RowLedger.Proofs.Connection.Levels

/-!
Every way a savepoint, its release and a transaction around an action can go, whatever the driver
answers.
-/

namespace RowLedger

namespace Setup

variable {σ : Type}

def rollbackText (s : Setup σ) : String := s.config.dialect.render s.config.dialect.rollback

def savepointText (s : Setup σ) (name : String) (depth : Nat) : String :=
  s.config.dialect.render (s.config.dialect.savepoint name depth)

/-- The statement that releases a savepoint, if the dialect has one for its depth. -/
def releaseText? (s : Setup σ) (name : String) (depth : Nat) : Option String :=
  (s.config.dialect.release? name depth).map s.config.dialect.render

theorem savepointText_ne_rollbackText (s : Setup σ) (name : String) (depth : Nat) :
    s.savepointText name depth ≠ s.rollbackText := by
  intro h
  have h := congrArg String.toList h
  cases hd : s.config.dialect <;> by_cases h0 : depth = 0 <;>
    simp [savepointText, rollbackText, Dialect.savepoint, Dialect.rollback, Dialect.render,
      Dialect.renderPiece, hd, h0] at h

theorem releaseText?_ne_rollbackText {s : Setup σ} {name sql : String} {depth : Nat}
    (h : s.releaseText? name depth = some sql) : sql ≠ s.rollbackText := by
  rintro rfl
  cases hd : s.config.dialect with
  | sqlite =>
    rw [releaseText?, hd, Dialect.release?, Option.map_some, Option.some.injEq] at h
    have h := congrArg String.toList h
    simp [rollbackText, Dialect.rollback, Dialect.render, Dialect.renderPiece, hd] at h
  | sqlServer =>
    by_cases h0 : depth = 0 <;>
      simp [releaseText?, rollbackText, Dialect.release?, Dialect.commit, Dialect.rollback,
        Dialect.render, Dialect.renderPiece, hd, h0] at h

end Setup

namespace Act

variable {σ α : Type} {s : Setup σ} {c : Connection σ}

/-- The connection after everything was rolled back, whatever the database said. -/
def rolledBack (s : Setup σ) (c : Connection σ) : Connection σ :=
  { c with depth := 0, ledgerReady := false,
           world := (s.driver.execute s.rollbackText [] c.world).2 }

@[simp] theorem rolledBack_depth : (rolledBack s c).depth = 0 := rfl

@[simp] theorem rolledBack_world :
    (rolledBack s c).world = (s.driver.execute s.rollbackText [] c.world).2 := rfl

/-- The name of a savepoint tells the depth at which it was opened, if it tells any. -/
theorem eq_depth_of_nextName {k : Nat} (h : Savepoint.depth? (nextName s c) = some k) :
    k = c.depth := by
  rw [nextName, Savepoint.depth?_name, Option.filter_eq_some_iff] at h
  exact (Option.some.inj h.1).symm

theorem run_openLevel_error {sql : Sql} {e : StorageError} {w : σ}
    (h : s.driver.execute (s.config.dialect.render sql) [] c.world = (.error e, w)) :
    (openLevel sql).run s c = (.error (.storage e),
      if e.code.forcesRollback then rolledBack s { c with world := w }
      else { c with world := w, depth := c.depth - 1 }) := by
  rw [openLevel, run_bind_attempt _ (run_exec_error h)]
  by_cases hf : e.code.forcesRollback
  · simp only [recover, hf, if_true]
    rfl
  · simp only [recover, hf, if_false, Bool.false_eq_true]
    rfl

theorem run_commit_error {e : StorageError} {w : σ} (hd : 0 < c.depth)
    (h : s.driver.execute (s.config.dialect.render s.config.dialect.commit) [] c.world =
      (.error e, w)) :
    commit.run s c = (.error (.storage e), rolledBack s { c with world := w }) := by
  have hexec : (exec s.config.dialect.commit []).run s { c with depth := 0 } =
      (.error (.storage e), { c with depth := 0, world := w }) := run_exec_error h
  rw [commit, run_bind_ok _ run_state, run_bind_ok _ (run_setDepth 0), if_pos hd,
    run_bind_ok _ run_dialect, run_bind_attempt _ hexec]
  rfl

/-- The connection after a savepoint could not be opened. -/
def unopened (s : Setup σ) (c : Connection σ) (e : StorageError) (w : σ) : Connection σ :=
  let c := { c with world := w, savepointsDrawn := c.savepointsDrawn + 1 }
  if e.code.forcesRollback then rolledBack s c else c

theorem run_save_error {e : StorageError} {w : σ}
    (h : s.driver.execute (s.savepointText (nextName s c) c.depth) [] c.world = (.error e, w)) :
    save.run s c = (.error (.storage e), unopened s c e w) := by
  rw [run_save_named]
  exact run_bind_error _ (run_openLevel_error h)

/-- A savepoint is opened, or the statement failed. -/
theorem run_save_cases (s : Setup σ) (c : Connection σ) :
    (∃ r w, s.driver.execute (s.savepointText (nextName s c) c.depth) [] c.world = (.ok r, w) ∧
      save.run s c = (.ok (nextName s c),
        { c with world := w, depth := c.depth + 1, savepointsDrawn := c.savepointsDrawn + 1 })) ∨
    ∃ e w, s.driver.execute (s.savepointText (nextName s c) c.depth) [] c.world = (.error e, w) ∧
      save.run s c = (.error (.storage e), unopened s c e w) := by
  rcases h : s.driver.execute (s.savepointText (nextName s c) c.depth) [] c.world with ⟨e | r, w⟩
  · exact .inr ⟨e, w, rfl, run_save_error h⟩
  · exact .inl ⟨r, w, rfl, run_save_ok h⟩

/-- The connection after a statement at a savepoint failed. -/
def unreleased (s : Setup σ) (c : Connection σ) (e : StorageError) (w : σ) : Connection σ :=
  let c := { c with world := w }
  if e.code = .busy then rolledBack s c else c

theorem run_execAtSavepoint_error {sql : Sql} {e : StorageError} {w : σ}
    (h : s.driver.execute (s.config.dialect.render sql) [] c.world = (.error e, w)) :
    (execAtSavepoint sql).run s c = (.error (.storage e), unreleased s c e w) := by
  have hexec : (exec sql []).run s c = (.error (.storage e), { c with world := w }) := by
    rw [run_exec, h]
    rfl
  rw [execAtSavepoint, run_bind_attempt _ hexec]
  by_cases hb : e.code = .busy
  · simp only [Error.code, unreleased, hb, if_true]
    rfl
  · simp only [Error.code, unreleased, hb, if_false]
    rfl

/-- A savepoint that is open is released, with a statement or without one, or the statement
failed. -/
theorem run_release_cases {name : String} {k : Nat} (hk : Savepoint.depth? name = some k)
    (hlt : k < c.depth) :
    (s.releaseText? name k = none ∧ (release name).run s c = (.ok (), { c with depth := k })) ∨
    ∃ sql, s.releaseText? name k = some sql ∧
      ((∃ r w, s.driver.execute sql [] c.world = (.ok r, w) ∧
        (release name).run s c = (.ok (), { c with depth := k, world := w })) ∨
      ∃ e w, s.driver.execute sql [] c.world = (.error e, w) ∧
        (release name).run s c =
          (.error (.storage e), unreleased s { c with depth := k } e w)) := by
  rcases hr : s.config.dialect.release? name k with _ | sql
  · refine .inl ⟨?_, run_release_silent hk hlt hr⟩
    rw [Setup.releaseText?, hr, Option.map_none]
  · have htext : s.releaseText? name k = some (s.config.dialect.render sql) := by
      rw [Setup.releaseText?, hr, Option.map_some]
    refine .inr ⟨s.config.dialect.render sql, htext, ?_⟩
    rw [run_release_sql hk hlt hr]
    rcases he : s.driver.execute (s.config.dialect.render sql) [] c.world with ⟨e | r, w⟩
    · exact .inr ⟨e, w, rfl, run_execAtSavepoint_error he⟩
    · exact .inl ⟨r, w, rfl, run_execAtSavepoint_ok (run_exec_ok he)⟩

/-- The stages of a transaction around an action. -/
theorem run_runInTransaction_eq (body : Act σ α) :
    (runInTransaction body).run s c =
      match save.run s c with
      | (.error e, c₁) => (.error e, c₁)
      | (.ok name, c₁) =>
        match body.run s c₁ with
        | (.error e, c₂) => (.error e, rolledBack s c₂)
        | (.ok a, c₂) =>
          match (release name).run s c₂ with
          | (.ok (), c₃) => (.ok a, c₃)
          | (.error e, c₃) => (.error e, rolledBack s c₃) := by
  rw [runInTransaction, run_bind, keepingInTransaction, run_bind, run_attempt]
  rcases save.run s c with ⟨e | name, c₁⟩
  · rfl
  dsimp only
  rw [run_bind, run_bind, run_attempt]
  rcases body.run s c₁ with ⟨e | a, c₂⟩
  · rfl
  dsimp only [run_pure]
  rw [run_bind, run_attempt]
  rcases (release name).run s c₂ with ⟨e | ⟨⟨⟩⟩, c₃⟩ <;> rfl

theorem run_runInTransaction_unopened {e : Error} {c₁ : Connection σ} (body : Act σ α)
    (h : save.run s c = (.error e, c₁)) : (runInTransaction body).run s c = (.error e, c₁) := by
  rw [run_runInTransaction_eq, h]

end Act

end RowLedger
