import RowLedger.Proofs.Connection.Physical
import RowLedger.Proofs.Text.Blank

/-! What the calls that open and close levels do when the database keeps transactions. -/

namespace RowLedger

namespace Savepoint

theorem toList_name (number depth : Nat) :
    (name number depth).toList = 'S' :: Text.natDigits number ++ 'D' :: Text.natDigits depth := by
  simp [name, Text.toList_showInt_natCast]

/-- The depth can be read from the name as long as it fits. -/
theorem depth?_name (number depth : Nat) :
    depth? (name number depth) = (some depth).filter (· < UInt64.size) := by
  have hd : ∀ c ∈ 'S' :: Text.natDigits number, (c == 'D') = false := by
    intro c hc
    rcases List.mem_cons.mp hc with rfl | hc
    · decide
    · simpa using Text.ne_of_isDigit (Text.isDigit_of_mem_natDigits hc) (d := 'D') (by decide)
  have hsplit : Text.splitFirst? (· == 'D') (name number depth).toList =
      some ('S' :: Text.natDigits number, Text.natDigits depth) := by
    rw [toList_name]
    exact Text.splitFirst?_append hd rfl _
  have hsize : 2 ≤ String.utf8ByteSize (String.ofList ('S' :: Text.natDigits number)) := by
    obtain ⟨c, cs, hcs⟩ := List.exists_cons_of_ne_nil (Text.natDigits_ne_nil number)
    have hS : 0 < 'S'.utf8Size := Char.utf8Size_pos _
    have hc : 0 < c.utf8Size := Char.utf8Size_pos _
    rw [hcs, String.ofList_cons, String.ofList_cons]
    simp only [String.utf8ByteSize_append, String.utf8ByteSize_singleton]
    omega
  simp only [depth?, hsplit, hsize, if_true, Text.readUnsigned?_natDigits]

theorem depth?_name_eq_zero {number depth : Nat} :
    depth? (name number depth) = some 0 ↔ depth = 0 := by
  rw [depth?_name, Option.filter_eq_some_iff]
  constructor
  · rintro ⟨h, -⟩
    simpa using h
  · rintro rfl
    exact ⟨rfl, by decide⟩

end Savepoint

namespace Act

variable {σ : Type} {s : Setup σ} {view : σ → Physical} {c c' : Connection σ}

theorem run_isInTransaction :
    (isInTransaction : Act σ Bool).run s c = (.ok (decide (0 < c.depth)), c) := rfl

theorem run_setDepth (n : Nat) : (setDepth n).run s c = (.ok (), { c with depth := n }) := rfl

theorem run_forgetLedger :
    (forgetLedger : Act σ Unit).run s c = (.ok (), { c with ledgerReady := false }) := rfl

theorem run_exec_command {k : Physical.Command} {p : Physical} {sql : Sql}
    (h : s.KeepsTransactions view)
    (ht : k.text? s.config.dialect = some (s.config.dialect.render sql))
    (hp : (view c.world).after k = some p) :
    ∃ r w, (exec sql []).run s c = (.ok r, { c with world := w }) ∧ view w = p := by
  obtain ⟨r, w, hr, hw⟩ := h.carries ht hp
  exact ⟨r, w, run_exec_ok hr, hw⟩

theorem run_openLevel_ok {sql : Sql} {r : ExecResult} (h : (exec sql []).run s c = (.ok r, c')) :
    (openLevel sql).run s c = (.ok (), c') := by
  rw [openLevel, run_bind_attempt _ h]
  rfl

theorem run_begin_sql (hd : c.depth = 0) :
    begin.run s c = (openLevel Dialect.begin).run s { c with depth := 1 } := by
  rw [begin, run_bind_ok _ run_state, if_pos hd, run_bind_ok _ (run_setDepth 1)]

theorem run_begin
    (h : s.KeepsTransactions view) (hd : c.depth = 0) (hc : view c.world = .closed) :
    ∃ c', begin.run s c = (.ok (), c') ∧ c'.depth = 1 ∧ view c'.world = .active false [] := by
  have hp : (view c.world).after .begin = some (.active false []) := by rw [hc]; rfl
  have ht : Physical.Command.begin.text? s.config.dialect =
      some (s.config.dialect.render Dialect.begin) := by
    cases s.config.dialect <;> rfl
  obtain ⟨r, w, hr, hw⟩ := run_exec_command (c := { c with depth := 1 }) h ht hp
  refine ⟨{ c with depth := 1, world := w }, ?_, rfl, hw⟩
  rw [run_begin_sql hd]
  exact run_openLevel_ok hr

theorem run_begin_again (hd : c.depth ≠ 0) :
    begin.run s c = (.error (.invalidOperation .alreadyInTransaction), c) := by
  rw [begin, run_bind_ok _ run_state, if_neg hd]
  rfl

/-- The name of the next savepoint. -/
def nextName (s : Setup σ) (c : Connection σ) : String :=
  Savepoint.name (s.savepointNumber c.savepointsDrawn) c.depth

/-- A savepoint has its name before it is opened. -/
theorem run_save_named (s : Setup σ) (c : Connection σ) :
    save.run s c = (do
      openLevel (s.config.dialect.savepoint (nextName s c) c.depth)
      return nextName s c).run s
        { c with depth := c.depth + 1, savepointsDrawn := c.savepointsDrawn + 1 } := by
  have hdraw : drawSavepointNumber.run s { c with depth := c.depth + 1 } =
      (.ok (s.savepointNumber c.savepointsDrawn),
        { c with depth := c.depth + 1, savepointsDrawn := c.savepointsDrawn + 1 }) := rfl
  rw [save, run_bind_ok _ run_state, run_bind_ok _ (run_setDepth _), run_bind_ok _ hdraw,
    run_bind_ok _ run_dialect]
  rfl

theorem run_save_ok {r : ExecResult} {w : σ}
    (hr : s.driver.execute (s.config.dialect.render
      (s.config.dialect.savepoint (nextName s c) c.depth)) [] c.world = (.ok r, w)) :
    save.run s c = (.ok (nextName s c), { c with
      world := w, depth := c.depth + 1, savepointsDrawn := c.savepointsDrawn + 1 }) := by
  rw [run_save_named]
  exact run_bind_ok _ (run_openLevel_ok (run_exec_ok hr))

theorem run_save {p : Physical}
    (hexec : ∃ r w, s.driver.execute (s.config.dialect.render
      (s.config.dialect.savepoint (nextName s c) c.depth)) [] c.world = (.ok r, w) ∧ view w = p) :
    ∃ c', save.run s c = (.ok (nextName s c), c') ∧ c'.depth = c.depth + 1 ∧
      view c'.world = p := by
  obtain ⟨r, w, hr, hw⟩ := hexec
  exact ⟨_, run_save_ok hr, rfl, hw⟩

theorem run_openDepth {name : String} {k : Nat} (hk : Savepoint.depth? name = some k)
    (hlt : k < c.depth) : (openDepth name).run s c = (.ok k, c) := by
  rw [openDepth, run_bind_ok _ run_state, hk, Option.filter_some, if_pos (decide_eq_true hlt)]
  rfl

theorem run_openDepth_stale {name : String}
    (hk : ∀ k, Savepoint.depth? name = some k → ¬k < c.depth) :
    (openDepth name).run s c = (.error (.invalidSavepoint name), c) := by
  have hnone : (Savepoint.depth? name).filter (· < c.depth) = none := by
    rw [Option.filter_eq_none_iff]
    intro k hd
    simpa using hk k hd
  rw [openDepth, run_bind_ok _ run_state, hnone]
  rfl

theorem run_release_stale {name : String}
    (hk : ∀ k, Savepoint.depth? name = some k → ¬k < c.depth) :
    (release name).run s c = (.error (.invalidSavepoint name), c) :=
  run_bind_error _ (run_openDepth_stale hk)

theorem run_rollbackTo_stale {name : String} (hname : name ≠ "")
    (hk : ∀ k, Savepoint.depth? name = some k → ¬k < c.depth) :
    (rollbackTo name).run s c = (.error (.invalidSavepoint name), c) := by
  rw [rollbackTo, if_neg hname]
  exact run_bind_error _ (run_openDepth_stale hk)

theorem run_release_silent {name : String} {k : Nat} (hk : Savepoint.depth? name = some k)
    (hlt : k < c.depth) (hsql : s.config.dialect.release? name k = none) :
    (release name).run s c = (.ok (), { c with depth := k }) := by
  rw [release, run_bind_ok _ (run_openDepth hk hlt), run_bind_ok _ (run_setDepth k),
    run_bind_ok _ run_dialect, hsql]
  rfl

theorem run_release_sql {name : String} {k : Nat} {sql : Sql}
    (hk : Savepoint.depth? name = some k) (hlt : k < c.depth)
    (hsql : s.config.dialect.release? name k = some sql) :
    (release name).run s c = (execAtSavepoint sql).run s { c with depth := k } := by
  rw [release, run_bind_ok _ (run_openDepth hk hlt), run_bind_ok _ (run_setDepth k),
    run_bind_ok _ run_dialect, hsql]

theorem run_rollbackTo_sql {name : String} {k : Nat} (hname : name ≠ "")
    (hk : Savepoint.depth? name = some k) (hlt : k < c.depth) :
    (rollbackTo name).run s c = (execAtSavepoint (s.config.dialect.rollbackTo name)).run s
      { c with depth := k, ledgerReady := false } := by
  rw [rollbackTo, if_neg hname, run_bind_ok _ (run_openDepth hk hlt),
    run_bind_ok _ (run_setDepth k), run_bind_ok _ run_forgetLedger, run_bind_ok _ run_dialect]

theorem run_execAtSavepoint_ok {sql : Sql} {r : ExecResult}
    (h : (exec sql []).run s c = (.ok r, c')) :
    (execAtSavepoint sql).run s c = (.ok (), c') := by
  rw [execAtSavepoint, run_bind_attempt _ h]
  rfl

/-- A statement at a savepoint carries a command out. -/
theorem run_execAtSavepoint {k : Physical.Command} {p : Physical} {sql : Sql}
    (h : s.KeepsTransactions view)
    (ht : k.text? s.config.dialect = some (s.config.dialect.render sql))
    (hp : (view c.world).after k = some p) :
    ∃ c', (execAtSavepoint sql).run s c = (.ok (), c') ∧ c'.depth = c.depth ∧
      view c'.world = p := by
  obtain ⟨r, w, hr, hw⟩ := run_exec_command h ht hp
  exact ⟨{ c with world := w }, run_execAtSavepoint_ok hr, rfl, hw⟩

/-- What the release of a savepoint makes of a transaction. -/
def released? (d : Dialect) (name : String) (k : Nat) (p : Physical) : Option Physical :=
  match d with
  | .sqlite => p.after (.release name)
  | .sqlServer => if k = 0 then p.after .commit else some p

theorem run_release {name : String} {k : Nat} {p : Physical}
    (h : s.KeepsTransactions view) (hk : Savepoint.depth? name = some k) (hlt : k < c.depth)
    (hp : released? s.config.dialect name k (view c.world) = some p) :
    ∃ c', (release name).run s c = (.ok (), c') ∧ c'.depth = k ∧ view c'.world = p := by
  rcases hd : s.config.dialect with _ | _
  · rw [hd] at hp
    have ht : (Physical.Command.release name).text? s.config.dialect =
        some (s.config.dialect.render [.word ("release " ++ name)]) := by
      simp [hd, Physical.Command.text?, Dialect.render, Dialect.renderPiece]
    rw [run_release_sql hk hlt (by rw [hd]; rfl)]
    exact run_execAtSavepoint (c := { c with depth := k }) h ht hp
  · rw [hd] at hp
    by_cases h0 : k = 0
    · rw [released?, if_pos h0] at hp
      have ht : Physical.Command.commit.text? s.config.dialect =
          some (s.config.dialect.render (Dialect.commit .sqlServer)) := by
        rw [hd]
        rfl
      rw [run_release_sql hk hlt (by rw [hd, Dialect.release?, if_pos h0])]
      exact run_execAtSavepoint (c := { c with depth := k }) h ht hp
    · rw [released?, if_neg h0] at hp
      rw [run_release_silent hk hlt (by rw [hd, Dialect.release?, if_neg h0])]
      exact ⟨{ c with depth := k }, rfl, rfl, Option.some.inj hp⟩

theorem run_rollbackTo {name : String} {k : Nat} {p : Physical}
    (h : s.KeepsTransactions view) (hname : name ≠ "") (hk : Savepoint.depth? name = some k)
    (hlt : k < c.depth) (hp : (view c.world).after (.rollbackTo name) = some p) :
    ∃ c', (rollbackTo name).run s c = (.ok (), c') ∧ c'.depth = k ∧ view c'.world = p := by
  have ht : (Physical.Command.rollbackTo name).text? s.config.dialect =
      some (s.config.dialect.render (s.config.dialect.rollbackTo name)) := by
    cases s.config.dialect <;>
      simp [Physical.Command.text?, Dialect.rollbackTo, Dialect.render, Dialect.renderPiece]
  rw [run_rollbackTo_sql hname hk hlt]
  exact run_execAtSavepoint (c := { c with depth := k, ledgerReady := false }) h ht hp

theorem run_rollback_idle (hd : ¬0 < c.depth) :
    rollback.run s c = (.ok (), { c with depth := 0 }) := by
  rw [rollback, run_bind_ok _ run_state, run_bind_ok _ (run_setDepth 0), if_neg hd]
  rfl

theorem run_rollback_sql (hd : 0 < c.depth) :
    rollback.run s c = (do let _ ← exec s.config.dialect.rollback []).run s
      { c with depth := 0, ledgerReady := false } := by
  rw [rollback, run_bind_ok _ run_state, run_bind_ok _ (run_setDepth 0), if_pos hd,
    run_bind_ok _ run_forgetLedger, run_bind_ok _ run_dialect]

theorem run_rollback
    (h : s.KeepsTransactions view) (hfit : 0 < c.depth ↔ view c.world ≠ .closed) :
    ∃ c', rollback.run s c = (.ok (), c') ∧ c'.depth = 0 ∧ view c'.world = .closed := by
  by_cases hd : 0 < c.depth
  · let c₁ : Connection σ := { c with depth := 0, ledgerReady := false }
    have ht : Physical.Command.rollback.text? s.config.dialect =
        some (s.config.dialect.render s.config.dialect.rollback) := by
      cases s.config.dialect <;> rfl
    obtain ⟨r, w, hr, hw⟩ := run_exec_command (c := c₁) h ht (Physical.after_rollback (hfit.1 hd))
    refine ⟨{ c₁ with world := w }, ?_, rfl, hw⟩
    rw [run_rollback_sql hd]
    exact run_bind_ok _ hr
  · exact ⟨_, run_rollback_idle hd, rfl, Classical.not_not.1 fun hv => hd (hfit.2 hv)⟩

theorem run_commit_idle (hd : ¬0 < c.depth) :
    commit.run s c = (.ok (), { c with depth := 0 }) := by
  rw [commit, run_bind_ok _ run_state, run_bind_ok _ (run_setDepth 0), if_neg hd]
  rfl

theorem run_commit_ok {r : ExecResult} (hd : 0 < c.depth)
    (h : (exec s.config.dialect.commit []).run s { c with depth := 0 } = (.ok r, c')) :
    commit.run s c = (.ok (), c') := by
  rw [commit, run_bind_ok _ run_state, run_bind_ok _ (run_setDepth 0), if_pos hd,
    run_bind_ok _ run_dialect, run_bind_attempt _ h]
  rfl

theorem run_commit
    (h : s.KeepsTransactions view) (hfit : 0 < c.depth ↔ view c.world ≠ .closed) :
    ∃ c', commit.run s c = (.ok (), c') ∧ c'.depth = 0 ∧ view c'.world = .closed := by
  by_cases hd : 0 < c.depth
  · have ht : Physical.Command.commit.text? s.config.dialect =
        some (s.config.dialect.render s.config.dialect.commit) := by
      cases s.config.dialect <;> rfl
    obtain ⟨r, w, hr, hw⟩ :=
      run_exec_command (c := { c with depth := 0 }) h ht (Physical.after_commit (hfit.1 hd))
    exact ⟨_, run_commit_ok hd hr, rfl, hw⟩
  · exact ⟨_, run_commit_idle hd, rfl, Classical.not_not.1 fun hv => hd (hfit.2 hv)⟩

end Act

end RowLedger
