import RowLedger.Connection.Insertion
import RowLedger.Proofs.Cache.Basic

/-! What actions answer, and what they leave of the connection. -/

namespace RowLedger.Act

variable {σ α β : Type} {s : Setup σ} {c c' : Connection σ}

@[simp] theorem run_pure (a : α) : (pure a : Act σ α).run s c = (.ok a, c) := rfl

theorem run_bind (x : Act σ α) (f : α → Act σ β) :
    (x >>= f).run s c =
      match x.run s c with
      | (.ok a, c') => (f a).run s c'
      | (.error e, c') => (.error e, c') := by
  change StateT.run (ExceptT.run (ReaderT.run x s >>= fun a => ReaderT.run (f a) s)) c = _
  rw [ExceptT.run_bind]
  unfold run
  simp only [StateT.run, bind, StateT.bind]
  rcases ExceptT.run (ReaderT.run x s) c with ⟨e | a, c'⟩ <;> rfl

theorem run_bind_ok {x : Act σ α} {a : α} (f : α → Act σ β) (h : x.run s c = (.ok a, c')) :
    (x >>= f).run s c = (f a).run s c' := by
  rw [run_bind, h]

theorem run_bind_error {x : Act σ α} {e : Error} (f : α → Act σ β)
    (h : x.run s c = (.error e, c')) : (x >>= f).run s c = (.error e, c') := by
  rw [run_bind, h]

theorem of_run_bind_ok {x : Act σ α} {f : α → Act σ β} {b : β}
    (h : (x >>= f).run s c = (.ok b, c')) :
    ∃ a c₁, x.run s c = (.ok a, c₁) ∧ (f a).run s c₁ = (.ok b, c') := by
  rw [run_bind] at h
  rcases hx : x.run s c with ⟨e | a, c₁⟩
  · rw [hx] at h
    cases h
  · rw [hx] at h
    exact ⟨a, c₁, rfl, h⟩

/-- Two actions that end alike may stand for each other in front of a third one. -/
theorem run_bind_congr {x y : Act σ α} {c₁ : Connection σ} (f : α → Act σ β)
    (h : x.run s c = y.run s c₁) : (x >>= f).run s c = (y >>= f).run s c₁ := by
  rw [run_bind, run_bind, h]

theorem run_ite (p : Prop) [Decidable p] (x y : Act σ α) :
    (if p then x else y).run s c = if p then x.run s c else y.run s c := by
  split <;> rfl

@[simp] theorem run_ofExcept (r : Except Error α) : (ofExcept r : Act σ α).run s c = (r, c) := rfl

@[simp] theorem run_fail (e : Error) : (fail e : Act σ α).run s c = (.error e, c) := rfl

@[simp] theorem run_state : (state : Act σ _).run s c = (.ok c, c) := rfl

@[simp] theorem run_update (f : Connection σ → Connection σ) :
    (update f).run s c = (.ok (), f c) := rfl

@[simp] theorem run_dialect : (dialect : Act σ _).run s c = (.ok s.config.dialect, c) := rfl

@[simp] theorem run_attempt (x : Act σ α) :
    (attempt x).run s c = (.ok (x.run s c).1, (x.run s c).2) := rfl

/-- After an attempt goes on what awaits its outcome. -/
theorem run_bind_attempt {x : Act σ α} {r : Except Error α} (f : Except Error α → Act σ β)
    (h : x.run s c = (r, c')) : (attempt x >>= f).run s c = (f r).run s c' := by
  rw [run_bind_ok f (run_attempt x), h]

theorem run_exec (sql : Sql) (params : List Param) :
    (exec sql params : Act σ _).run s c =
      let r := s.driver.execute (s.config.dialect.render sql) params c.world
      (r.1.mapError Error.storage, { c with world := r.2 }) := rfl

theorem run_exec_ok {sql : Sql} {params : List Param} {r : ExecResult} {w : σ}
    (h : s.driver.execute (s.config.dialect.render sql) params c.world = (.ok r, w)) :
    (exec sql params : Act σ _).run s c = (.ok r, { c with world := w }) := by
  rw [run_exec, h]
  rfl

theorem run_exec_error {sql : Sql} {params : List Param} {e : StorageError} {w : σ}
    (h : s.driver.execute (s.config.dialect.render sql) params c.world = (.error e, w)) :
    (exec sql params : Act σ _).run s c = (.error (.storage e), { c with world := w }) := by
  rw [run_exec, h]
  rfl

theorem of_run_exec_ok {sql : Sql} {params : List Param} {r : ExecResult}
    (h : (exec sql params : Act σ _).run s c = (.ok r, c')) :
    ∃ w, s.driver.execute (s.config.dialect.render sql) params c.world = (.ok r, w) ∧
      c' = { c with world := w } := by
  rcases hr : s.driver.execute (s.config.dialect.render sql) params c.world with ⟨e | r', w⟩
  · cases (run_exec_error hr).symm.trans h
  · cases (run_exec_ok hr).symm.trans h
    exact ⟨w, rfl, rfl⟩

theorem run_execCount_ok {sql : Sql} {params : List Param} {r : ExecResult}
    (h : (exec sql params : Act σ _).run s c = (.ok r, c')) :
    (execCount sql params : Act σ _).run s c = (.ok r.rowsAffected, c') := run_bind_ok _ h

theorem run_execCount_error {sql : Sql} {params : List Param} {e : Error}
    (h : (exec sql params : Act σ _).run s c = (.error e, c')) :
    (execCount sql params : Act σ _).run s c = (.error e, c') := run_bind_error _ h

theorem run_query (sql : Sql) (params : List Param) :
    (query sql params : Act σ _).run s c =
      let r := s.driver.query (s.config.dialect.render sql) params c.world
      (r.1.mapError Error.storage, { c with world := r.2 }) := rfl

theorem run_scalar (sql : Sql) (params : List Param) :
    (scalar sql params : Act σ _).run s c =
      let r := s.driver.scalar (s.config.dialect.render sql) params c.world
      (r.1.mapError Error.storage, { c with world := r.2 }) := rfl

/-- A command for inserts is the one that is remembered, or it is derived and remembered. -/
theorem run_insertCommand_keep (t : RecordType) (m : Mapping) (mode : InsertMode) :
    (insertCommand t m mode).run s c =
      let r := c.commands.keep ⟨t, m.flags, mode, s.config.dialect⟩
        (.derive s.config.dialect m mode)
      (.ok r.1.value, { c with commands := r.2 }) := by
  rw [insertCommand, run_bind_ok _ run_dialect, run_bind_ok _ run_state, Cache.serve_ok]
  rfl

/-- An action that fails only within what it returns. -/
def Answers (s : Setup σ) (x : Act σ α) : Prop := ∀ c, ∃ a c', x.run s c = (.ok a, c')

namespace Answers

theorem pure (a : α) : Answers s (pure a : Act σ α) := fun c => ⟨a, c, rfl⟩

theorem attempt (x : Act σ α) : Answers s (attempt x) := fun _ => ⟨_, _, run_attempt x⟩

theorem bind {x : Act σ α} {f : α → Act σ β} (h : Answers s x) (hf : ∀ a, Answers s (f a)) :
    Answers s (x >>= f) := by
  intro c
  obtain ⟨a, c₁, hx⟩ := h c
  rw [run_bind_ok f hx]
  exact hf a c₁

end Answers

end RowLedger.Act
