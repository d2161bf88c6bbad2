import RowLedger.Proofs.Connection.Enclosing
import RowLedger.Proofs.Connection.Keeping

/-!
Properties that are kept when levels are opened and closed, by names that were given to savepoints,
and by what runs in a transaction.
-/

namespace RowLedger.Act

variable {σ α β : Type} {s : Setup σ} {I : Connection σ → Prop} {c c' : Connection σ}

theorem Keeps.openDepth (name : String) : Keeps s I (openDepth name) := by
  refine .state_bind fun c => ?_
  split
  · exact .pure _
  · exact .fail _

theorem Keeps.eachOf {f : Entity → Act σ Written} {es : List Entity}
    (hf : ∀ e ∈ es, Keeps s I (f e)) : Keeps s I (eachOf f es) := by
  induction es with
  | nil => exact .pure _
  | cons e es ih =>
    refine (hf e List.mem_cons_self).bind fun r => ?_
    split
    · exact .pure _
    · exact (ih fun b hb => hf b (List.mem_cons_of_mem _ hb)).bind fun _ => .pure _

/-- What the parts of the calls that open and close levels keep. -/
structure Transacting (s : Setup σ) (I : Connection σ → Prop) : Prop where
  levels (f : Connection σ → Nat) : Keeps s I (update fun c => { c with depth := f c })
  drawSavepointNumber : Keeps s I drawSavepointNumber
  begins : Keeps s I (exec Dialect.begin [])
  saves (number depth : Nat) :
    Keeps s I (exec (s.config.dialect.savepoint (Savepoint.name number depth) depth) [])
  releases {number level depth : Nat} {sql : Sql} :
    s.config.dialect.release? (Savepoint.name number level) depth = some sql →
      Keeps s I (exec sql [])
  commits : Keeps s I (exec s.config.dialect.commit [])
  quietRollback : Keeps s I quietRollback

namespace Transacting

variable (T : Transacting s I)
include T

theorem setDepth (n : Nat) : Keeps s I (setDepth n) := T.levels fun _ => n

theorem openLevel {sql : Sql} (h : Keeps s I (exec sql [])) : Keeps s I (openLevel sql) := by
  have hrecover (e : Error) : Keeps s I (recover e) := by
    unfold recover
    split
    · exact .ite T.quietRollback (T.levels _)
    · exact T.levels _
  refine h.attempt.bind fun r => ?_
  split
  · exact .pure _
  · exact (hrecover _).bind fun _ => .fail _

theorem begin : Keeps s I begin :=
  .state_bind fun _ => .ite ((T.setDepth 1).bind fun _ => T.openLevel T.begins) (.fail _)

theorem save : Keeps s I save :=
  .state_bind fun c => (T.setDepth _).bind fun _ => T.drawSavepointNumber.bind fun n =>
    .dialect_bind ((T.openLevel (T.saves n c.depth)).bind fun _ => .pure _)

theorem execAtSavepoint {sql : Sql} (h : Keeps s I (exec sql [])) :
    Keeps s I (execAtSavepoint sql) := by
  refine h.attempt.bind fun r => ?_
  split
  · exact .pure _
  · split
    · exact T.quietRollback.bind fun _ => .fail _
    · exact .fail _

theorem release (number level : Nat) : Keeps s I (release (Savepoint.name number level)) := by
  refine (Keeps.openDepth _).bind fun depth => (T.setDepth depth).bind fun _ => .dialect_bind ?_
  split
  next sql hsql => exact T.execAtSavepoint (T.releases hsql)
  · exact .pure _

theorem commit : Keeps s I commit := by
  refine .state_bind fun c => (T.setDepth 0).bind fun _ => .ite (.dialect_bind ?_) (.pure _)
  refine T.commits.attempt.bind fun r => ?_
  split
  · exact .pure _
  · exact T.quietRollback.bind fun _ => .fail _

end Transacting

theorem save_name {name : String} (h : save.run s c = (.ok name, c')) :
    ∃ number level, name = Savepoint.name number level := by
  rcases run_save_cases s c with ⟨r, w, -, hrun⟩ | ⟨e, w, -, hrun⟩
  · cases hrun.symm.trans h
    exact ⟨_, _, rfl⟩
  · cases hrun.symm.trans h

theorem run_keepingInTransaction_unopened {kept : β} {e : Error}
    (body : Act σ (β × Except Error α)) (h : save.run s c = (.error e, c')) :
    (keepingInTransaction kept body).run s c = (.ok (kept, .error e), c') := by
  rw [keepingInTransaction, run_bind_attempt _ h]
  rfl

namespace Transacting

variable (T : Transacting s I) {name : String} {c₁ : Connection σ}
include T

/-- What holds after an action holds after the transaction around it. -/
theorem keeping {kept : β} {body : Act σ (β × Except Error α)}
    (hsave : Act.save.run s c = (.ok name, c₁)) (hbody : I (body.run s c₁).2) :
    I ((keepingInTransaction kept body).run s c).2 := by
  rw [keepingInTransaction, run_bind_attempt _ hsave]
  dsimp only
  rw [run_bind]
  rcases hr : body.run s c₁ with ⟨e | ⟨kept', e | a⟩, c₂⟩
  · rwa [hr] at hbody
  · rw [hr] at hbody
    exact (T.quietRollback.bind fun _ => .pure _) c₂ hbody
  · rw [hr] at hbody
    obtain ⟨number, level, rfl⟩ := save_name hsave
    refine ((T.release number level).attempt.bind fun r => ?_) c₂ hbody
    split
    · exact .pure _
    · exact T.quietRollback.bind fun _ => .pure _

theorem running {body : Act σ α} (hsave : Act.save.run s c = (.ok name, c₁))
    (hbody : I (body.run s c₁).2) : I ((runInTransaction body).run s c).2 := by
  have hkeeping : I ((keepingInTransaction () (do return ((), ← attempt body))).run s c).2 :=
    T.keeping hsave hbody
  rw [runInTransaction, run_bind]
  split
  next hr => rwa [hr] at hkeeping
  next hr => rwa [hr] at hkeeping

theorem keepingInTransaction {kept : β} {body : Act σ (β × Except Error α)}
    (hbody : Keeps s I body) : Keeps s I (Act.keepingInTransaction kept body) := by
  intro c hc
  have hsave := T.save c hc
  rcases hr : Act.save.run s c with ⟨e | name, c₁⟩
  · rw [hr] at hsave
    rwa [run_keepingInTransaction_unopened body hr]
  · rw [hr] at hsave
    exact T.keeping hr (hbody c₁ hsave)

theorem runInTransaction {body : Act σ α} (hbody : Keeps s I body) :
    Keeps s I (Act.runInTransaction body) :=
  (T.keepingInTransaction (hbody.attempt.bind fun _ => .pure _)).bind fun _ => .ofExcept _

end Transacting

end RowLedger.Act
