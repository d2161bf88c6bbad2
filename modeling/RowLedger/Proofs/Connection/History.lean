import Mathlib.Data.List.DropRight
import RowLedger.Proofs.Connection.Closing

/-!
The names that a connection takes for savepoints of its own. It asks only whether the level that a
name tells is open: a name that it never gave away is taken for one if it tells an open level. As
long as no failure puts the count out of step, the names of open savepoints are all taken.
-/

namespace RowLedger

/-- A connection, and the levels that its calls have opened and not closed since, the innermost
first: each has the name of its savepoint, and none where a transaction was begun. -/
structure History (σ : Type) where
  conn : Connection (σ × List String)
  levels : List (Option String) := []

/-- A step of a run. A transaction around an action is made of steps: it saves, and after the steps
of the action it releases its savepoint or, when either fails, gives up. -/
inductive LevelStep
  | call (call : LevelCall)
  | abandon
  deriving DecidableEq

namespace LevelStep

variable {σ : Type}

/-- The step itself, whatever it answers. -/
def act : LevelStep → Act σ Unit
  | call c => Act.quietly c.perform
  | abandon => Act.quietRollback

/-- An action that takes some steps and then ends. -/
def acts : List LevelStep → Except Error Unit → Act σ Unit
  | [], r => Act.ofExcept r
  | step :: steps, r => do
    step.act
    acts steps r

end LevelStep

namespace LevelCall

variable {σ : Type}

/-- The levels that are open after a call that went well. A call at a savepoint closes the level
that the name tells and those inside it. -/
def leaves (opened : Option String) (levels : List (Option String)) :
    LevelCall → List (Option String)
  | begin | save => opened :: levels
  | release name | rollbackTo name => levels.rtake ((Savepoint.depth? name).getD 0)
  | rollback | commit => []

theorem leaves_point {call : LevelCall} {name : String} (hpoint : call.point? = some name)
    (opened : Option String) (levels : List (Option String)) :
    call.leaves opened levels = levels.rtake ((Savepoint.depth? name).getD 0) := by
  cases call with
  | release other =>
    obtain rfl := Option.some.inj hpoint
    rfl
  | rollbackTo other =>
    simp only [point?, Option.ite_none_left_eq_some, Option.some.injEq] at hpoint
    rw [← hpoint.2, leaves]
  | _ => cases hpoint

/-- The connection does not take a name for that of an open savepoint. -/
def Rejects (s : Setup σ) (name : String) (c : Connection (σ × List String)) (call : LevelCall) :
    Prop :=
  (call.perform.run s.noting c).1 = .error (.invalidSavepoint name)

/-- A database that is not busy refuses what is asked at a savepoint. -/
def Refused (s : Setup σ) (c : Connection (σ × List String)) (call : LevelCall) : Prop :=
  call.point?.isSome ∧ ∃ e : StorageError, e.code ≠ .busy ∧
    (call.perform.run s.noting c).1 = .error (.storage e)

end LevelCall

namespace History

variable {σ : Type}

/-- A rollback leaves no level open, also one that the connection issued by itself. -/
def next (s : Setup σ) (h : History σ) (call : LevelCall) : History σ :=
  let (r, c) := call.perform.run s.noting h.conn
  if s.rollbackText ∈ Setup.issued h.conn c then ⟨c, []⟩
  else
    match r with
    | .ok opened => ⟨c, call.leaves opened h.levels⟩
    | .error _ => ⟨c, h.levels⟩

def after (s : Setup σ) (h : History σ) : LevelStep → History σ
  | .call call => h.next s call
  | .abandon => ⟨(Act.quietRollback.run s.noting h.conn).2, []⟩

def run (s : Setup σ) (h : History σ) (steps : List LevelStep) : History σ :=
  steps.foldl (after s) h

/-- The database refuses nothing that is asked at a savepoint in a run, unless it is busy or the
connection gives up at once. -/
def Obliged (s : Setup σ) : History σ → List LevelStep → Prop
  | _, [] => True
  | h, step :: steps =>
    (∀ call, step = .call call → call.Refused s h.conn → steps.head? = some .abandon) ∧
      Obliged s (h.after s step) steps

/-- The count is that of the open levels, and each savepoint is named for the levels around it. -/
structure Counted (h : History σ) : Prop where
  depth_eq : h.conn.depth = h.levels.length
  named {name : String} {rest : List (Option String)} : some name :: rest <:+ h.levels →
    ∃ number, name = Savepoint.name number rest.length

end History

namespace Setup

theorem beginText_ne_rollbackText {σ : Type} (s : Setup σ) :
    s.config.dialect.render Dialect.begin ≠ s.rollbackText := by
  cases hd : s.config.dialect <;> rw [rollbackText, hd] <;> decide

end Setup

namespace LevelCall

open Act Setup

variable {σ : Type} {s : Setup σ} {c c₁ c' : Connection (σ × List String)}

/-- Every way that a call can go that opens a level. -/
inductive OpenOutcome (s : Setup σ) (opened : Option String) (c : Connection (σ × List String)) :
    Except Error (Option String) × Connection (σ × List String) → Prop
  | opened {c' : Connection (σ × List String)} : c'.depth = c.depth + 1 → s.Quiet c c' →
      OpenOutcome s opened c (.ok opened, c')
  | unopened {e : Error} {c' : Connection (σ × List String)} : c'.depth = c.depth → s.Quiet c c' →
      OpenOutcome s opened c (.error e, c')
  | lost {e : Error} {c' : Connection (σ × List String)} : c'.depth = 0 →
      s.rollbackText ∈ issued c c' → OpenOutcome s opened c (.error e, c')

theorem outcome_of_openLevel {x : Act (σ × List String) (Option String)} {sql : Sql}
    {opened : Option String}
    (hx : x.run s.noting c = (do openLevel sql; return opened).run s.noting c₁)
    (hdepth : c₁.depth = c.depth + 1) (hworld : c₁.world = c.world)
    (hsql : s.config.dialect.render sql ≠ s.rollbackText) :
    OpenOutcome s opened c (x.run s.noting c) := by
  rw [hx]
  rcases hexec : s.noting.driver.execute (s.config.dialect.render sql) [] c₁.world with ⟨e | r, w⟩
  all_goals
    have hnoted := noted_of_execute hexec
    rw [hworld] at hnoted
  · rw [run_bind_error _ (run_openLevel_error (s := s.noting) hexec)]
    by_cases hf : e.code.forcesRollback
    · rw [if_pos hf]
      exact .lost rfl (mem_issued_rolledBack hnoted)
    · rw [if_neg hf]
      refine .unopened ?_ (.of_noted hsql hnoted)
      change c₁.depth - 1 = c.depth
      omega
  · rw [run_bind_ok _ (run_openLevel_ok (run_exec_ok (s := s.noting) hexec))]
    exact .opened hdepth (.of_noted hsql hnoted)

theorem begin_outcome (hdepth : c.depth = 0) :
    OpenOutcome s none c (begin.perform.run s.noting c) :=
  outcome_of_openLevel (run_bind_congr _ (run_begin_sql hdepth)) (by rw [hdepth]) rfl
    s.beginText_ne_rollbackText

theorem save_outcome (s : Setup σ) (c : Connection (σ × List String)) :
    OpenOutcome s (some (nextName s.noting c)) c (save.perform.run s.noting c) := by
  have hsave := run_bind_congr (fun name => pure (some name)) (run_save_named s.noting c)
  rw [bind_assoc] at hsave
  exact outcome_of_openLevel hsave rfl rfl (s.savepointText_ne_rollbackText _ _)

/-- Every way that a call can go that ends the transaction. -/
inductive EndOutcome (s : Setup σ) (c : Connection (σ × List String)) :
    Except Error (Option String) × Connection (σ × List String) → Prop
  | ended {c' : Connection (σ × List String)} : c'.depth = 0 → EndOutcome s c (.ok none, c')
  | lost {e : Error} {c' : Connection (σ × List String)} : c'.depth = 0 →
      s.rollbackText ∈ issued c c' → EndOutcome s c (.error e, c')

theorem rollback_outcome (s : Setup σ) (c : Connection (σ × List String)) :
    EndOutcome s c (rollback.perform.run s.noting c) := by
  by_cases hopen : 0 < c.depth
  · have hrollback := run_rollback_sql (s := s.noting) hopen
    rcases hexec : s.noting.driver.execute s.rollbackText [] c.world with ⟨e | r, w⟩
    · have hlost : issued c { c with depth := 0, ledgerReady := false, world := w } =
          [s.rollbackText] := issued_of_append (noted_of_execute hexec)
      rw [perform, run_bind_error _ (hrollback.trans (run_bind_error _ (run_exec_error hexec)))]
      exact .lost rfl (hlost ▸ List.mem_cons_self)
    · rw [perform, run_bind_ok _ (hrollback.trans (run_bind_ok _ (run_exec_ok hexec)))]
      exact .ended rfl
  · rw [perform, run_bind_ok _ (run_rollback_idle hopen)]
    exact .ended rfl

theorem commit_outcome (s : Setup σ) (c : Connection (σ × List String)) :
    EndOutcome s c (commit.perform.run s.noting c) := by
  by_cases hopen : 0 < c.depth
  · rcases hexec : s.noting.driver.execute (s.config.dialect.render s.config.dialect.commit) []
      c.world with ⟨e | r, w⟩
    · rw [perform, run_bind_error _ (run_commit_error (s := s.noting) hopen hexec)]
      exact .lost rfl (mem_issued_rolledBack (noted_of_execute hexec))
    · rw [perform, run_bind_ok _ (run_commit_ok (s := s.noting) hopen (run_exec_ok hexec))]
      exact .ended rfl
  · rw [perform, run_bind_ok _ (run_commit_idle hopen)]
    exact .ended rfl

end LevelCall

namespace History

open LevelCall Setup

variable {σ : Type} {s : Setup σ} {h : History σ} {call : LevelCall}
  {c : Connection (σ × List String)}

theorem next_lost {r : Except Error (Option String)}
    (hrun : call.perform.run s.noting h.conn = (r, c))
    (hlost : s.rollbackText ∈ issued h.conn c) : h.next s call = ⟨c, []⟩ := by
  simp only [next, hrun, if_pos hlost]

theorem next_ok {opened : Option String}
    (hrun : call.perform.run s.noting h.conn = (.ok opened, c)) (hquiet : s.Quiet h.conn c) :
    h.next s call = ⟨c, call.leaves opened h.levels⟩ := by
  simp only [next, hrun, if_neg hquiet.not_mem_issued]

theorem next_error {e : Error} (hrun : call.perform.run s.noting h.conn = (.error e, c))
    (hquiet : s.Quiet h.conn c) : h.next s call = ⟨c, h.levels⟩ := by
  simp only [next, hrun, if_neg hquiet.not_mem_issued]

theorem counted_nil (hdepth : c.depth = 0) : Counted ⟨c, []⟩ where
  depth_eq := hdepth
  named hsuffix := by simp at hsuffix

theorem Counted.same (hcounted : Counted h) (hdepth : c.depth = h.conn.depth) :
    Counted ⟨c, h.levels⟩ where
  depth_eq := hdepth.trans hcounted.depth_eq
  named := hcounted.named

theorem Counted.opened {opened : Option String} (hcounted : Counted h)
    (hdepth : c.depth = h.conn.depth + 1)
    (hname : ∀ name, opened = some name → ∃ number, name = Savepoint.name number h.conn.depth) :
    Counted ⟨c, opened :: h.levels⟩ where
  depth_eq := by
    rw [hdepth, hcounted.depth_eq]
    rfl
  named {name rest} hsuffix := by
    rcases List.suffix_cons_iff.1 hsuffix with heq | hsuffix
    · obtain ⟨rfl, rfl⟩ := List.cons.inj heq
      rw [← hcounted.depth_eq]
      exact hname name rfl
    · exact hcounted.named hsuffix

/-- What is closed is inside the levels that stay. -/
theorem Counted.rtake {k : Nat} (hcounted : Counted h) (hdepth : c.depth = k)
    (hlt : k < h.conn.depth) : Counted ⟨c, h.levels.rtake k⟩ where
  depth_eq := by
    rw [hcounted.depth_eq] at hlt
    rw [hdepth, List.rtake, List.length_drop]
    omega
  named hsuffix := hcounted.named (hsuffix.trans (List.drop_suffix _ _))

theorem Counted.next_open {opened : Option String} (hcounted : Counted h)
    (hopens : call.leaves opened h.levels = opened :: h.levels)
    (hout : OpenOutcome s opened h.conn (call.perform.run s.noting h.conn))
    (hname : ∀ name, opened = some name → ∃ number, name = Savepoint.name number h.conn.depth) :
    Counted (h.next s call) := by
  rcases hrun : call.perform.run s.noting h.conn with ⟨r, c⟩
  rw [hrun] at hout
  cases hout with
  | opened hdepth hquiet =>
    rw [next_ok hrun hquiet, hopens]
    exact hcounted.opened hdepth hname
  | unopened hdepth hquiet =>
    rw [next_error hrun hquiet]
    exact hcounted.same hdepth
  | lost hdepth hlost =>
    rw [next_lost hrun hlost]
    exact counted_nil hdepth

theorem counted_next_end (hends : ∀ levels, call.leaves none levels = [])
    (hout : EndOutcome s h.conn (call.perform.run s.noting h.conn)) :
    Counted (h.next s call) := by
  rcases hrun : call.perform.run s.noting h.conn with ⟨r, c⟩
  rw [hrun] at hout
  cases hout with
  | ended hdepth =>
    by_cases hlost : s.rollbackText ∈ issued h.conn c
    · rw [next_lost hrun hlost]
      exact counted_nil hdepth
    · have hnext : h.next s call = ⟨c, call.leaves none h.levels⟩ := by
        simp only [History.next, hrun, if_neg hlost]
      rw [hnext, hends]
      exact counted_nil hdepth
  | lost hdepth hlost =>
    rw [next_lost hrun hlost]
    exact counted_nil hdepth

theorem Counted.next_point {name : String} (hcounted : Counted h)
    (hpoint : call.point? = some name) (hobliged : ¬call.Refused s h.conn) :
    Counted (h.next s call) := by
  have hout := run_point (s := s) hpoint h.conn
  rcases hrun : call.perform.run s.noting h.conn with ⟨r, c⟩
  rw [hrun] at hout
  cases hout with
  | rejected =>
    rw [next_error hrun (.of_eq rfl)]
    exact hcounted
  | @reached k _ hk hlt hdepth hquiet =>
    rw [next_ok hrun hquiet, leaves_point hpoint, hk, Option.getD_some]
    exact hcounted.rtake hdepth hlt
  | busy _ _ _ hdepth hlost =>
    rw [next_lost hrun hlost]
    exact counted_nil hdepth
  | refused _ _ hbusy =>
    exact absurd ⟨Option.isSome_of_eq_some hpoint, _, hbusy, congrArg Prod.fst hrun⟩ hobliged

theorem Counted.next (hcounted : Counted h) (hobliged : ¬call.Refused s h.conn) :
    Counted (h.next s call) := by
  cases call with
  | begin =>
    by_cases hdepth : h.conn.depth = 0
    · exact hcounted.next_open rfl (begin_outcome hdepth) nofun
    · have hagain : LevelCall.begin.perform.run s.noting h.conn =
          (.error (.invalidOperation .alreadyInTransaction), h.conn) :=
        Act.run_bind_error _ (Act.run_begin_again hdepth)
      rw [next_error hagain (.of_eq rfl)]
      exact hcounted
  | save =>
    refine hcounted.next_open rfl (save_outcome s h.conn) ?_
    rintro name ⟨⟩
    exact ⟨_, rfl⟩
  | release name => exact hcounted.next_point rfl hobliged
  | rollbackTo name =>
    by_cases hname : name = ""
    · subst hname
      exact counted_next_end (fun levels => List.rtake_zero levels) (rollback_outcome s h.conn)
    · exact hcounted.next_point (if_neg hname) hobliged
  | rollback => exact counted_next_end (fun _ => rfl) (rollback_outcome s h.conn)
  | commit => exact counted_next_end (fun _ => rfl) (commit_outcome s h.conn)

theorem counted_abandon : Counted (h.after s .abandon) := counted_nil rfl

/-- Giving up brings the count back in step, so that what failed just before does not matter. -/
theorem Counted.run {steps : List LevelStep}
    (hcounted : Counted h ∨ steps.head? = some .abandon) (hobliged : Obliged s h steps) :
    Counted (h.run s steps) := by
  induction steps generalizing h with
  | nil => exact hcounted.resolve_right nofun
  | cons step steps ih =>
    obtain ⟨hstep, hrest⟩ := hobliged
    refine ih ?_ hrest
    cases step with
    | abandon => exact .inl counted_abandon
    | call call =>
      have hcounted := hcounted.resolve_right (by simp)
      by_cases hrefused : call.Refused s h.conn
      · exact .inr (hstep call rfl hrefused)
      · exact .inl (hcounted.next hrefused)

theorem rejects_cases {name : String} (hpoint : call.point? = some name) :
    (call.Rejects s name c ∧ (∀ k, Savepoint.depth? name = some k → ¬k < c.depth) ∧
      (call.perform.run s.noting c).2 = c) ∨
    ¬call.Rejects s name c ∧ ∃ k, Savepoint.depth? name = some k ∧ k < c.depth := by
  have hout := run_point (s := s) hpoint c
  unfold Rejects
  cases hrun : call.perform.run s.noting c with
  | mk r c' =>
    rw [hrun] at hout
    cases hout with
    | rejected hstale => exact .inl ⟨rfl, hstale, rfl⟩
    | reached hk hlt => exact .inr ⟨nofun, _, hk, hlt⟩
    | busy hk hlt => exact .inr ⟨nofun, _, hk, hlt⟩
    | refused hk hlt => exact .inr ⟨nofun, _, hk, hlt⟩

theorem next_conn (s : Setup σ) (h : History σ) (call : LevelCall) :
    (h.next s call).conn = (call.perform.run s.noting h.conn).2 := by
  unfold History.next
  dsimp only
  split
  · rfl
  · split <;> rfl

theorem run_act (step : LevelStep) :
    step.act.run s.noting h.conn = (.ok (), (h.after s step).conn) := by
  cases step with
  | call call =>
    rw [after, next_conn]
    rfl
  | abandon => rfl

theorem run_acts (steps : List LevelStep) (r : Except Error Unit) :
    (LevelStep.acts steps r).run s.noting h.conn = (r, (h.run s steps).conn) := by
  induction steps generalizing h with
  | nil => rfl
  | cons step steps ih => exact (Act.run_bind_ok _ (run_act step)).trans ih

/-- A transaction around an action of steps is a run of steps. -/
theorem run_transaction (steps : List LevelStep) (r : Except Error Unit) :
    ∃ all, ((Act.runInTransaction (LevelStep.acts steps r)).run s.noting h.conn).2 =
      (h.run s all).conn := by
  have hrun (more : List LevelStep) : h.run s (.call .save :: steps ++ more) =
      ((h.next s .save).run s steps).run s more := List.foldl_append
  rw [Act.run_runInTransaction_eq]
  rcases hsave : Act.save.run s.noting h.conn with ⟨e | name, c₁⟩
  · have hfailed : LevelCall.save.perform.run s.noting h.conn = (.error e, c₁) :=
      Act.run_bind_error _ hsave
    refine ⟨[.call .save], ?_⟩
    change c₁ = (h.next s .save).conn
    rw [next_conn, hfailed]
  · have hsaved : LevelCall.save.perform.run s.noting h.conn = (.ok (some name), c₁) :=
      Act.run_bind_ok _ hsave
    have hacts := run_acts (s := s) (h := h.next s .save) steps r
    rw [next_conn, hsaved] at hacts
    dsimp only
    rw [hacts]
    cases r with
    | error e =>
      refine ⟨.call .save :: steps ++ [.abandon], ?_⟩
      rw [hrun]
      rfl
    | ok u =>
      dsimp only
      rcases hrelease : (Act.release name).run s.noting ((h.next s .save).run s steps).conn
        with ⟨e | ⟨⟨⟩⟩, c₃⟩
      · have hfailed : (LevelCall.release name).perform.run s.noting
            ((h.next s .save).run s steps).conn = (.error e, c₃) := Act.run_bind_error _ hrelease
        refine ⟨.call .save :: steps ++ [.call (.release name), .abandon], ?_⟩
        rw [hrun]
        change Act.rolledBack s.noting c₃ =
          Act.rolledBack s.noting (((h.next s .save).run s steps).next s (.release name)).conn
        rw [next_conn, hfailed]
      · have hreleased : (LevelCall.release name).perform.run s.noting
            ((h.next s .save).run s steps).conn = (.ok none, c₃) := Act.run_bind_ok _ hrelease
        refine ⟨.call .save :: steps ++ [.call (.release name)], ?_⟩
        rw [hrun]
        change c₃ = (((h.next s .save).run s steps).next s (.release name)).conn
        rw [next_conn, hreleased]

/-- What the connection makes of a name. -/
structure Judgement (s : Setup σ) (h : History σ) (call : LevelCall) (name : String) : Prop where
  /-- A name that is rejected changes nothing, and no statement is issued for it. -/
  unchanged : call.Rejects s name h.conn → (call.perform.run s.noting h.conn).2 = h.conn
  /-- Nothing but the level that the name tells is looked at. -/
  rejects_iff : call.Rejects s name h.conn ↔
    ∀ k, Savepoint.depth? name = some k → h.conn.depth ≤ k

/-- What the connection makes of a name as long as the count is that of the open levels. -/
structure FairJudgement (s : Setup σ) (h : History σ) (call : LevelCall) (name : String) :
    Prop where
  /-- The name of an open savepoint is taken, unless too many levels are around it for a number of
  64 bits. -/
  open_iff {rest : List (Option String)} : some name :: rest <:+ h.levels →
    (call.Rejects s name h.conn ↔ UInt64.size ≤ rest.length)
  /-- Any other name is taken as well if it tells one of the open levels. -/
  foreign_iff : some name ∉ h.levels →
    (call.Rejects s name h.conn ↔ ∀ k, Savepoint.depth? name = some k → h.levels.length ≤ k)

theorem judgement {name : String} (hpoint : call.point? = some name) (s : Setup σ)
    (h : History σ) : Judgement s h call name := by
  rcases rejects_cases (s := s) (c := h.conn) hpoint with ⟨hrejects, hstale, hsame⟩ | ⟨hnot, hopen⟩
  · have hstale : ∀ k, Savepoint.depth? name = some k → h.conn.depth ≤ k :=
      fun k hk => Nat.le_of_not_lt (hstale k hk)
    exact ⟨fun _ => hsame, iff_of_true hrejects hstale⟩
  · refine ⟨fun hrejects => absurd hrejects hnot, iff_of_false hnot ?_⟩
    intro hstale
    obtain ⟨k, hk, hlt⟩ := hopen
    exact Nat.not_lt_of_le (hstale k hk) hlt

theorem Counted.fairJudgement {name : String} (hcounted : Counted h)
    (hpoint : call.point? = some name) : FairJudgement s h call name := by
  have hrejects := (judgement hpoint s h).rejects_iff
  rw [hcounted.depth_eq] at hrejects
  refine ⟨?_, fun _ => hrejects⟩
  intro rest hsuffix
  have hlt : rest.length < h.levels.length := hsuffix.length_le
  obtain ⟨number, rfl⟩ := hcounted.named hsuffix
  rw [hrejects, Savepoint.depth?_name]
  constructor
  · intro hstale
    -- a number that fits would tell a level that is open
    by_contra hfits
    have hfits : rest.length < UInt64.size := Nat.lt_of_not_le hfits
    have := hstale rest.length (Option.filter_some_pos (decide_eq_true hfits))
    omega
  · intro hlarge k hk
    obtain ⟨heq, hfits⟩ := Option.filter_eq_some_iff.1 hk
    obtain rfl := Option.some.inj heq
    exact absurd (of_decide_eq_true hfits) (Nat.not_lt_of_le hlarge)

/-- After any run, a name is rejected if and only if it tells no level below the count. As long as
the database refuses nothing at a savepoint, the names of open savepoints are taken, and of the
others those that tell an open level, although no savepoint of theirs is open. -/
theorem run_judgement {c : Connection (σ × List String)} (hdepth : c.depth = 0)
    (steps : List LevelStep) {call : LevelCall} {name : String}
    (hpoint : call.point? = some name) :
    Judgement s (run s ⟨c, []⟩ steps) call name ∧
      (Obliged s ⟨c, []⟩ steps → FairJudgement s (run s ⟨c, []⟩ steps) call name) := by
  refine ⟨judgement hpoint s _, fun hobliged => ?_⟩
  have hcounted := Counted.run (.inl (counted_nil hdepth)) hobliged
  exact hcounted.fairJudgement hpoint

end History

def Samples.untouched : Connection (Physical × List String) := { world := (.closed, []) }

/-- A transaction, and a savepoint in it. -/
def Samples.savedInside : History Physical :=
  History.run Samples.liteSetup ⟨Samples.untouched, []⟩ [.call .begin, .call .save]

/-- A name that was never given away is taken because it tells the level of the savepoint. -/
theorem Samples.foreignName_taken :
    Samples.savedInside.levels = [some "S0D1", none] ∧
      ¬(LevelCall.release "S0D1").Rejects Samples.liteSetup "S0D1" Samples.savedInside.conn ∧
      ¬(LevelCall.release "XXD1").Rejects Samples.liteSetup "XXD1" Samples.savedInside.conn := by
  have hlevels : Samples.savedInside.levels = [some "S0D1", none] := by decide +kernel
  have hobliged : History.Obliged Samples.liteSetup ⟨Samples.untouched, []⟩
      [.call .begin, .call .save] := by
    simp [History.Obliged, LevelCall.Refused, LevelCall.point?]
  have hdepth : Samples.untouched.depth = 0 := rfl
  have hjudged (name : String) : History.FairJudgement Samples.liteSetup Samples.savedInside
      (.release name) name :=
    (History.run_judgement hdepth [.call .begin, .call .save]
      (show (LevelCall.release name).point? = some name from rfl)).2 hobliged
  refine ⟨hlevels, ?_, ?_⟩
  · have hsuffix : [some "S0D1", none] <:+ Samples.savedInside.levels :=
      hlevels ▸ List.suffix_rfl
    intro hrejects
    exact absurd (((hjudged "S0D1").open_iff hsuffix).1 hrejects) (by decide)
  · have hforeign : some "XXD1" ∉ Samples.savedInside.levels := by
      rw [hlevels]
      decide
    rw [(hjudged "XXD1").foreign_iff hforeign]
    intro hstale
    have hlarge : Samples.savedInside.levels.length ≤ 1 := hstale 1 (by decide)
    rw [hlevels] at hlarge
    exact absurd hlarge (by decide)

end RowLedger
