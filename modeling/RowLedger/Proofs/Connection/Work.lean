import RowLedger.Proofs.Connection.Enclosing
import RowLedger.Proofs.Connection.Nesting

/-!
Programs of statements and of transactions around programs, at any nesting. A program sees the
outcome of every call, failures too, and may go on after each of them. A transaction in it that
succeeds has lost nothing.
-/

namespace RowLedger

/-- A statement that a program issues, by the call that issues it. -/
inductive Issue
  | execute (sql : String) (params : List Param)
  | query (sql : String) (params : List Param)
  | scalar (sql : String) (params : List Param)
  deriving DecidableEq

inductive Answer
  | executed (r : ExecResult)
  | rows (r : ResultSet)
  | value (v : SqlValue)
  deriving DecidableEq

theorem Act.run_call_map {σ α β : Type} {s : Setup σ} {c : Connection σ}
    (f : Driver σ → σ → Reply σ α) (g : α → β) :
    (do return g (← Act.call f) : Act σ β).run s c =
      (((f s.driver c.world).1.map g).mapError Error.storage,
        { c with world := (f s.driver c.world).2 }) := by
  have hcall : (Act.call f).run s c = ((f s.driver c.world).1.mapError Error.storage,
    { c with world := (f s.driver c.world).2 }) := rfl
  rw [Act.run_bind, hcall]
  cases (f s.driver c.world).1 <;> rfl

namespace Issue

variable {σ : Type} {s : Setup σ} {c : Connection σ}

def sql : Issue → String
  | execute sql _ | query sql _ | scalar sql _ => sql

def perform : Issue → Act σ Answer
  | execute sql params => do return .executed (← Act.execText sql params)
  | query sql params => do return .rows (← Act.queryText sql params)
  | scalar sql params => do return .value (← Act.scalarText sql params)

/-- What a driver makes of it. -/
def reply (d : Driver σ) (w : σ) : Issue → Reply σ Answer
  | execute sql params => ((d.execute sql params w).1.map .executed, (d.execute sql params w).2)
  | query sql params => ((d.query sql params w).1.map .rows, (d.query sql params w).2)
  | scalar sql params => ((d.scalar sql params w).1.map .value, (d.scalar sql params w).2)

theorem run_perform (i : Issue) :
    i.perform.run s c = ((i.reply s.driver c.world).1.mapError Error.storage,
      { c with world := (i.reply s.driver c.world).2 }) := by
  cases i <;> exact Act.run_call_map _ _

end Issue

/-- A program ends, or issues one of the allowed statements, or runs a program in a transaction, and
goes on with what that answered. -/
inductive Work (allowed : Issue → Prop) : Type → Type 1
  | done {α : Type} (r : Except Error α) : Work allowed α
  | issue {α : Type} (i : Issue) (h : allowed i) (next : Except Error Answer → Work allowed α) :
      Work allowed α
  | transact {α β : Type} (body : Work allowed β) (next : Except Error β → Work allowed α) :
      Work allowed α

namespace Work

variable {σ α β : Type} {allowed : Issue → Prop} {s : Setup σ} {c : Connection σ}

def act {α : Type} : Work allowed α → Act σ α
  | done r => Act.ofExcept r
  | issue i _ next => do (next (← Act.attempt i.perform)).act
  | transact body next => do (next (← Act.attempt (Act.runInTransaction body.act))).act

theorem run_issue (i : Issue) (h : allowed i) (next : Except Error Answer → Work allowed α) :
    (issue i h next).act.run s c =
      (next ((i.reply s.driver c.world).1.mapError Error.storage)).act.run s
        { c with world := (i.reply s.driver c.world).2 } := by
  rw [act, Act.run_bind_attempt _ (Issue.run_perform i)]

theorem run_transact (body : Work allowed β) (next : Except Error β → Work allowed α) :
    (transact body next).act.run s c =
      (next ((Act.runInTransaction body.act).run s c).1).act.run s
        ((Act.runInTransaction body.act).run s c).2 := by
  rw [act, Act.run_bind, Act.run_attempt]

end Work

/-- The driver that also notes the text of every statement, in order. -/
def Driver.noting {σ : Type} (d : Driver σ) : Driver (σ × List String) where
  execute sql params w := ((d.execute sql params w.1).1, (d.execute sql params w.1).2, w.2 ++ [sql])
  query sql params w := ((d.query sql params w.1).1, (d.query sql params w.1).2, w.2 ++ [sql])
  scalar sql params w := ((d.scalar sql params w.1).1, (d.scalar sql params w.1).2, w.2 ++ [sql])
  openCursor sql params w :=
    ((d.openCursor sql params w.1).1, (d.openCursor sql params w.1).2, w.2 ++ [sql])
  nextRow cursor w := ((d.nextRow cursor w.1).1, (d.nextRow cursor w.1).2, w.2)
  closeCursor cursor w := ((d.closeCursor cursor w.1).1, (d.closeCursor cursor w.1).2, w.2)
  isOpen w := d.isOpen w.1
  close w := ((d.close w.1).1, (d.close w.1).2, w.2)

namespace Setup

variable {σ : Type}

def noting (s : Setup σ) : Setup (σ × List String) where
  driver := s.driver.noting
  config := s.config
  guid := s.guid
  savepointNumber := s.savepointNumber

/-- A statement is noted whether it fails or not. -/
theorem noted_of_execute {s : Setup σ} {sql : String} {params : List Param}
    {w w' : σ × List String} {r : Except StorageError ExecResult}
    (h : s.noting.driver.execute sql params w = (r, w')) : w'.2 = w.2 ++ [sql] :=
  (congrArg (fun p => p.2.2) h).symm

/-- No rollback is among the statements from one point to another. -/
def Quiet (s : Setup σ) (c c' : Connection (σ × List String)) : Prop :=
  ∃ issued, c'.world.2 = c.world.2 ++ issued ∧ s.rollbackText ∉ issued

variable {s : Setup σ} {c c₁ c₂ : Connection (σ × List String)}

theorem Quiet.of_eq (h : c₁.world.2 = c.world.2) : s.Quiet c c₁ :=
  ⟨[], by rw [h, List.append_nil], List.not_mem_nil⟩

theorem Quiet.of_noted {sql : String} (hsql : sql ≠ s.rollbackText)
    (h : c₁.world.2 = c.world.2 ++ [sql]) : s.Quiet c c₁ :=
  ⟨[sql], h, fun hmem => hsql (List.mem_singleton.mp hmem).symm⟩

theorem Quiet.trans (h₁ : s.Quiet c c₁) (h₂ : s.Quiet c₁ c₂) : s.Quiet c c₂ := by
  obtain ⟨l₁, hl₁, hn₁⟩ := h₁
  obtain ⟨l₂, hl₂, hn₂⟩ := h₂
  refine ⟨l₁ ++ l₂, ?_, ?_⟩
  · rw [hl₂, hl₁, List.append_assoc]
  · intro h
    rcases List.mem_append.mp h with h | h
    · exact hn₁ h
    · exact hn₂ h

/-- Nothing was lost from one point to another, or all levels are gone. -/
def Settles (s : Setup σ) (c c' : Connection (σ × List String)) : Prop :=
  c'.depth = c.depth ∧ s.Quiet c c' ∨ c'.depth = 0

theorem Settles.trans (h₁ : s.Settles c c₁) (h₂ : s.Settles c₁ c₂) : s.Settles c c₂ := by
  rcases h₂ with ⟨hd₂, hq₂⟩ | h₂
  · rcases h₁ with ⟨hd₁, hq₁⟩ | h₁
    · exact .inl ⟨hd₂.trans hd₁, hq₁.trans hq₂⟩
    · exact .inr (hd₂.trans h₁)
  · exact .inr h₂

end Setup

namespace Act

variable {σ α : Type} {s : Setup σ} {c c' : Connection (σ × List String)}

theorem unopened_settles {e : StorageError} {w : σ × List String}
    (h : s.Quiet c { c with world := w }) : s.Settles c (unopened s.noting c e w) := by
  unfold unopened
  by_cases hf : e.code.forcesRollback
  · rw [if_pos hf]
    exact .inr rfl
  · rw [if_neg hf]
    exact .inl ⟨rfl, h⟩

theorem save_settles (s : Setup σ) (c : Connection (σ × List String)) :
    (∃ c₁, save.run s.noting c = (.ok (nextName s.noting c), c₁) ∧ c₁.depth = c.depth + 1 ∧
      s.Quiet c c₁) ∨
    ∃ e c₁, save.run s.noting c = (.error e, c₁) ∧ s.Settles c c₁ := by
  have hname := s.savepointText_ne_rollbackText (nextName s.noting c) c.depth
  rcases run_save_cases s.noting c with ⟨r, w, hexec, hsave⟩ | ⟨e, w, hexec, hsave⟩
  · exact .inl ⟨_, hsave, rfl, .of_noted hname (Setup.noted_of_execute hexec)⟩
  · exact .inr ⟨_, _, hsave, unopened_settles (.of_noted hname (Setup.noted_of_execute hexec))⟩

/-- A release that succeeds finds the level of its savepoint still open around it. -/
theorem release_quiet {name : String} {k : Nat} (hk : ∀ j, Savepoint.depth? name = some j → j = k)
    (h : (release name).run s.noting c = (.ok (), c')) :
    k < c.depth ∧ c'.depth = k ∧ s.Quiet c c' := by
  by_cases hopen : ∃ j, Savepoint.depth? name = some j ∧ j < c.depth
  · obtain ⟨j, hj, hlt⟩ := hopen
    obtain rfl := hk j hj
    refine ⟨hlt, ?_⟩
    rcases run_release_cases (s := s.noting) hj hlt with ⟨-, hrun⟩ | ⟨sql, hsql, hrun⟩
    · obtain ⟨-, rfl⟩ := Prod.mk.inj (hrun.symm.trans h)
      exact ⟨rfl, .of_eq rfl⟩
    · rcases hrun with ⟨r, w, hexec, hrun⟩ | ⟨e, w, -, hrun⟩
      · obtain ⟨-, rfl⟩ := Prod.mk.inj (hrun.symm.trans h)
        have hnot := Setup.releaseText?_ne_rollbackText hsql
        exact ⟨rfl, .of_noted hnot (Setup.noted_of_execute hexec)⟩
      · cases hrun.symm.trans h
  · rw [run_release_stale fun j hj hlt => hopen ⟨j, hj, hlt⟩] at h
    cases h

/-- If an action loses no level without losing them all, then neither does a transaction around it,
and one that succeeds lost nothing. -/
theorem runInTransaction_settles {body : Act (σ × List String) α}
    (hbody : ∀ c, s.Settles c (body.run s.noting c).2) (c : Connection (σ × List String)) :
    s.Settles c ((runInTransaction body).run s.noting c).2 ∧
      ∀ a c', (runInTransaction body).run s.noting c = (.ok a, c') →
        c'.depth = c.depth ∧ s.Quiet c c' := by
  rw [run_runInTransaction_eq]
  rcases save_settles s c with ⟨c₁, hsave, hd₁, hq₁⟩ | ⟨e, c₁, hsave, hs₁⟩
  · have hbody := hbody c₁
    rw [hsave]
    dsimp only
    rcases hb : body.run s.noting c₁ with ⟨e | a, c₂⟩
    · exact ⟨.inr rfl, fun a c' h => by cases h⟩
    dsimp only
    rcases hrel : (release (nextName s.noting c)).run s.noting c₂ with ⟨e | ⟨⟨⟩⟩, c₃⟩
    · exact ⟨.inr rfl, fun a c' h => by cases h⟩
    obtain ⟨hlt, hd₃, hq₃⟩ := release_quiet (fun _ => eq_depth_of_nextName) hrel
    -- a level that the action lost would leave none for the release
    have hq₂ : s.Quiet c₁ c₂ := by
      rw [hb] at hbody
      rcases hbody with ⟨-, hq⟩ | h0
      · exact hq
      · rw [h0] at hlt
        exact absurd hlt (Nat.not_lt_zero _)
    have hkept : c₃.depth = c.depth ∧ s.Quiet c c₃ := ⟨hd₃, (hq₁.trans hq₂).trans hq₃⟩
    refine ⟨.inl hkept, ?_⟩
    rintro a c' ⟨⟩
    exact hkept
  · rw [hsave]
    exact ⟨hs₁, fun a c' h => by cases h⟩

end Act

namespace Work

variable {σ α β : Type} {s : Setup σ}

/-- The statements of a program that are no rollback. -/
abbrev Statements (s : Setup σ) : Issue → Prop := fun i => i.sql ≠ s.rollbackText

theorem settles (p : Work (Statements s) α) (c : Connection (σ × List String)) :
    s.Settles c (p.act.run s.noting c).2 := by
  induction p generalizing c with
  | done r => exact .inl ⟨rfl, .of_eq rfl⟩
  | issue i h next ih =>
    rw [run_issue]
    refine Setup.Settles.trans ?_ (ih _ _)
    refine .inl ⟨rfl, .of_noted h ?_⟩
    cases i <;> rfl
  | transact body next ihbody ih =>
    rw [run_transact]
    exact (Act.runInTransaction_settles ihbody c).1.trans (ih _ _)

/-- A transaction around a program that succeeds has issued no rollback, and it leaves the depth
that it found: whatever the database answered, whichever failures the program passed over, and
however its own transactions are nested. -/
theorem runInTransaction_quiet (body : Work (Statements s) α) {c c' : Connection (σ × List String)}
    {a : α} (h : (Act.runInTransaction body.act).run s.noting c = (.ok a, c')) :
    c'.depth = c.depth ∧
      ∃ issued, c'.world.2 = c.world.2 ++ issued ∧ s.rollbackText ∉ issued :=
  (Act.runInTransaction_settles body.settles c).2 a c' h

end Work

/-- A statement that the database refuses, and a transaction after it. -/
def Samples.patientWork : Work (Work.Statements Samples.liteSetup) Unit :=
  .issue (.execute "vacuum" []) (by decide) fun _ => .transact (.done (.ok ())) .done

theorem Samples.patientWork_quiet :
    ∃ c', (Act.runInTransaction Samples.patientWork.act).run Samples.liteSetup.noting
        { world := (.closed, []) } = (.ok (), c') ∧
      c'.depth = 0 ∧ Samples.liteSetup.rollbackText ∉ c'.world.2 := by
  have hok : ((Act.runInTransaction Samples.patientWork.act).run Samples.liteSetup.noting
      { world := (.closed, []) }).1.isOk := by decide +kernel
  rcases hrun : (Act.runInTransaction Samples.patientWork.act).run Samples.liteSetup.noting
    { world := (.closed, []) } with ⟨e | ⟨⟩, c'⟩
  · rw [hrun] at hok
    cases hok
  obtain ⟨hdepth, issued, hnoted, hnone⟩ := Work.runInTransaction_quiet Samples.patientWork hrun
  refine ⟨c', rfl, hdepth, ?_⟩
  rw [hnoted]
  exact hnone

end RowLedger
