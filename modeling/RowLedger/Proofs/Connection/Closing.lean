import RowLedger.Proofs.Connection.Work

/-!
The calls at a savepoint: its release and the return to it. Both set the count to the level that the
name tells, and only then ask the database. A refusal leaves the count there, below the levels that
the database has kept, unless it was busy: then everything is rolled back.
-/

namespace RowLedger

namespace Setup

variable {σ : Type} {s : Setup σ} {c c' : Connection (σ × List String)}

def rollbackToText (s : Setup σ) (name : String) : String :=
  s.config.dialect.render (s.config.dialect.rollbackTo name)

theorem rollbackToText_ne_rollbackText (s : Setup σ) (name : String) :
    s.rollbackToText name ≠ s.rollbackText := by
  intro h
  have h := congrArg String.toList h
  cases hd : s.config.dialect <;>
    simp [rollbackToText, rollbackText, Dialect.rollbackTo, Dialect.rollback, Dialect.render,
      Dialect.renderPiece, hd] at h

/-- The statements from one point to another. -/
def issued (c c' : Connection (σ × List String)) : List String :=
  c'.world.2.drop c.world.2.length

theorem issued_of_append {l : List String} (h : c'.world.2 = c.world.2 ++ l) :
    issued c c' = l := by
  rw [issued, h, List.drop_left]

theorem mem_issued_rolledBack {l : List String} (h : c'.world.2 = c.world.2 ++ l) :
    s.rollbackText ∈ issued c (Act.rolledBack s.noting c') := by
  have hlog : (Act.rolledBack s.noting c').world.2 = c.world.2 ++ (l ++ [s.rollbackText]) := by
    rw [← List.append_assoc, ← h]
    rfl
  rw [issued_of_append hlog]
  exact List.mem_append_right _ List.mem_cons_self

theorem Quiet.not_mem_issued (h : s.Quiet c c') : s.rollbackText ∉ issued c c' := by
  obtain ⟨l, hl, hnot⟩ := h
  rw [issued_of_append hl]
  exact hnot

/-- The count is as it was, or everything was rolled back and nothing is counted any more. -/
def KeepsCount (s : Setup σ) (c c' : Connection (σ × List String)) : Prop :=
  c'.depth = c.depth ∨ c'.depth = 0 ∧ s.rollbackText ∈ issued c c'

end Setup

namespace LevelCall

variable {σ : Type} {s : Setup σ} {c c' : Connection (σ × List String)}

/-- The savepoint that a call closes or returns to; an empty name stands for none. -/
def point? : LevelCall → Option String
  | release name => some name
  | rollbackTo name => if name = "" then none else some name
  | _ => none

/-- Every way that a call at a savepoint can go. -/
inductive PointOutcome (s : Setup σ) (name : String) (c : Connection (σ × List String)) :
    Except Error (Option String) × Connection (σ × List String) → Prop
  | rejected : (∀ k, Savepoint.depth? name = some k → ¬k < c.depth) →
      PointOutcome s name c (.error (.invalidSavepoint name), c)
  | reached {k : Nat} {c' : Connection (σ × List String)} :
      Savepoint.depth? name = some k → k < c.depth → c'.depth = k → s.Quiet c c' →
        PointOutcome s name c (.ok none, c')
  | busy {k : Nat} {e : StorageError} {c' : Connection (σ × List String)} :
      Savepoint.depth? name = some k → k < c.depth → e.code = .busy → c'.depth = 0 →
        s.rollbackText ∈ Setup.issued c c' → PointOutcome s name c (.error (.storage e), c')
  | refused {k : Nat} {e : StorageError} {c' : Connection (σ × List String)} :
      Savepoint.depth? name = some k → k < c.depth → e.code ≠ .busy → c'.depth = k →
        s.Quiet c c' → PointOutcome s name c (.error (.storage e), c')

end LevelCall

namespace LevelCall

open Act Setup

variable {σ : Type} {s : Setup σ} {c c₁ c' : Connection (σ × List String)} {name : String} {k : Nat}

/-- Once the count is set, the statement decides. -/
theorem outcome_of_execAtSavepoint {x : Act (σ × List String) Unit} {sql : Sql}
    (hx : x.run s.noting c = (execAtSavepoint sql).run s.noting c₁)
    (hk : Savepoint.depth? name = some k) (hlt : k < c.depth) (hdepth : c₁.depth = k)
    (hworld : c₁.world = c.world) (hsql : s.config.dialect.render sql ≠ s.rollbackText) :
    PointOutcome s name c ((do x; return none : Act _ (Option String)).run s.noting c) := by
  rcases hexec : s.noting.driver.execute (s.config.dialect.render sql) [] c₁.world with ⟨e | r, w⟩
  all_goals
    have hnoted := noted_of_execute hexec
    rw [hworld] at hnoted
  · rw [run_bind_error _ (hx.trans (run_execAtSavepoint_error (s := s.noting) hexec))]
    by_cases hbusy : e.code = .busy
    · rw [unreleased, if_pos hbusy]
      exact .busy hk hlt hbusy rfl (mem_issued_rolledBack hnoted)
    · rw [unreleased, if_neg hbusy]
      exact .refused hk hlt hbusy hdepth (.of_noted hsql hnoted)
  · rw [run_bind_ok _ (hx.trans (run_execAtSavepoint_ok (run_exec_ok (s := s.noting) hexec)))]
    exact .reached hk hlt hdepth (.of_noted hsql hnoted)

theorem release_outcome (hk : Savepoint.depth? name = some k) (hlt : k < c.depth) :
    PointOutcome s name c ((release name).perform.run s.noting c) := by
  rcases hsql : s.config.dialect.release? name k with _ | sql
  · rw [perform, run_bind_ok _ (run_release_silent (s := s.noting) hk hlt hsql)]
    exact .reached hk hlt rfl (.of_eq rfl)
  · have htext : s.releaseText? name k = some (s.config.dialect.render sql) := by
      rw [releaseText?, hsql, Option.map_some]
    exact outcome_of_execAtSavepoint (run_release_sql (s := s.noting) hk hlt hsql) hk hlt rfl rfl
      (releaseText?_ne_rollbackText htext)

theorem rollbackTo_outcome (hname : name ≠ "") (hk : Savepoint.depth? name = some k)
    (hlt : k < c.depth) : PointOutcome s name c ((rollbackTo name).perform.run s.noting c) :=
  outcome_of_execAtSavepoint (run_rollbackTo_sql (s := s.noting) hname hk hlt) hk hlt rfl rfl
    (s.rollbackToText_ne_rollbackText name)

theorem run_point {call : LevelCall} (hpoint : call.point? = some name)
    (c : Connection (σ × List String)) : PointOutcome s name c (call.perform.run s.noting c) := by
  have hcall : call = .release name ∨ call = .rollbackTo name ∧ name ≠ "" := by
    cases call with
    | release other => exact .inl (congrArg _ (Option.some.inj hpoint))
    | rollbackTo other =>
      simp only [point?, Option.ite_none_left_eq_some, Option.some.injEq] at hpoint
      obtain ⟨hname, rfl⟩ := hpoint
      exact .inr ⟨rfl, hname⟩
    | _ => cases hpoint
  by_cases hopen : ∃ k, Savepoint.depth? name = some k ∧ k < c.depth
  · obtain ⟨k, hk, hlt⟩ := hopen
    rcases hcall with rfl | ⟨rfl, hname⟩
    · exact release_outcome hk hlt
    · exact rollbackTo_outcome hname hk hlt
  · have hstale : ∀ k, Savepoint.depth? name = some k → ¬k < c.depth :=
      fun k hk hlt => hopen ⟨k, hk, hlt⟩
    rcases hcall with rfl | ⟨rfl, hname⟩
    · rw [perform, run_bind_error _ (run_release_stale hstale)]
      exact .rejected hstale
    · rw [perform, run_bind_error _ (run_rollbackTo_stale hname hstale)]
      exact .rejected hstale

/-- A failed call at a savepoint keeps the count in step exactly if its name was rejected or the
database was busy. After any other failure the count is that of the name, which is lower than
before, and nothing was rolled back. -/
theorem keepsCount_iff {call : LevelCall} {e : Error} (hpoint : call.point? = some name)
    (hrun : call.perform.run s.noting c = (.error e, c')) :
    (s.KeepsCount c c' ↔ e = .invalidSavepoint name ∨ e.code = .busy) ∧
      (¬s.KeepsCount c c' → Savepoint.depth? name = some c'.depth ∧ c'.depth < c.depth ∧
        s.rollbackText ∉ issued c c') := by
  have hout := run_point (s := s) hpoint c
  rw [hrun] at hout
  cases hout with
  | rejected =>
    have hkeeps : s.KeepsCount c c := .inl rfl
    exact ⟨iff_of_true hkeeps (.inl rfl), fun hnot => absurd hkeeps hnot⟩
  | busy _ _ hbusy hzero hmem =>
    have hkeeps : s.KeepsCount c c' := .inr ⟨hzero, hmem⟩
    exact ⟨iff_of_true hkeeps (.inr hbusy), fun hnot => absurd hkeeps hnot⟩
  | refused hk hlt hbusy hdepth hquiet =>
    have hnot : ¬s.KeepsCount c c' := by
      rintro (heq | ⟨-, hmem⟩)
      · omega
      · exact hquiet.not_mem_issued hmem
    refine ⟨iff_of_false hnot ?_, fun _ => ?_⟩
    · rintro (heq | heq)
      · cases heq
      · exact hbusy heq
    · rw [hdepth]
      exact ⟨hk, hlt, hquiet.not_mem_issued⟩

end LevelCall

/-- A disk that takes some statements and then none any more. -/
def Samples.failingDisk : Driver Nat :=
  .buffered
    (fun _ _ left =>
      match left with
      | 0 => (.error ⟨.ioError, "disk"⟩, 0)
      | left + 1 => (.ok {}, left))
    (fun _ _ left => (.ok {}, left)) (fun _ => true) (fun left => (.ok (), left))

def Samples.failingSetup : Setup Nat where
  driver := Samples.failingDisk
  config := .sqlite ":memory:"
  guid _ := .nil
  savepointNumber n := n

/-- The disk fails after it has taken one savepoint. -/
def Samples.savedOnce : Connection (Nat × List String) :=
  (LevelCall.save.perform.run Samples.failingSetup.noting { world := (1, []) }).2

def Samples.failedRelease : Except Error (Option String) × Connection (Nat × List String) :=
  (LevelCall.release "S0D0").perform.run Samples.failingSetup.noting Samples.savedOnce

theorem Samples.failedRelease_not_keepsCount :
    (LevelCall.release "S0D0").point? = some "S0D0" ∧
      Samples.failedRelease.1 = .error (.storage ⟨.ioError, "disk"⟩) ∧
      ¬Samples.failingSetup.KeepsCount Samples.savedOnce Samples.failedRelease.2 := by
  have hpoint : (LevelCall.release "S0D0").point? = some "S0D0" := rfl
  have hfails : Samples.failedRelease.1 = .error (.storage ⟨.ioError, "disk"⟩) := by
    decide +kernel
  have hrun : (LevelCall.release "S0D0").perform.run Samples.failingSetup.noting
      Samples.savedOnce = (.error (.storage ⟨.ioError, "disk"⟩), Samples.failedRelease.2) :=
    Prod.ext hfails rfl
  refine ⟨hpoint, hfails, fun hkeeps => ?_⟩
  have hcause := (LevelCall.keepsCount_iff hpoint hrun).1.1 hkeeps
  revert hcause
  decide

end RowLedger
