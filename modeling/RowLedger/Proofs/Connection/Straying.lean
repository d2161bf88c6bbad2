import RowLedger.Proofs.Connection.Holdings

/-!
What is committed when a transaction around a program fails: the statements that the program
carried out after a transaction inside it had failed, for that had ended the outermost one.
-/

namespace RowLedger

variable {σ D α β : Type} {s : Setup σ} {view : σ → Holdings D} {allowed : Issue → Prop}
  {effect : Issue → D → D} {c c₁ c₂ c₃ : Connection σ} {is js kept stray : List Issue}

/-- A content after statements. -/
def Issue.effects (effect : Issue → D → D) (is : List Issue) (d : D) : D :=
  is.foldl (fun d i => effect i d) d

theorem Issue.effects_append (is js : List Issue) (d : D) :
    effects effect (is ++ js) d = effects effect js (effects effect is d) := List.foldl_append

namespace Setup

/-- The count fits the transaction of the database. -/
def Fitting (s : Setup σ) (view : σ → Holdings D) (c : Connection σ) : Prop :=
  Physical.Level s.config.dialect c.depth (view c.world).transaction

/-- The connection is at the level where it was, and in between some statements were carried out. -/
structure Stays (s : Setup σ) (view : σ → Holdings D) (effect : Issue → D → D)
    (is : List Issue) (c c' : Connection σ) : Prop where
  pos : 0 < c.depth
  depth : c'.depth = c.depth
  resumed : Physical.Resumed s.config.dialect (view c.world).transaction (view c'.world).transaction
  entry : (view c'.world).entry = (view c.world).entry
  content : (view c'.world).content = Issue.effects effect is (view c.world).content

/-- No level is open any more, and some statements are committed. -/
structure Closes (s : Setup σ) (view : σ → Holdings D) (effect : Issue → D → D)
    (is : List Issue) (c c' : Connection σ) : Prop where
  depth : c'.depth = 0
  fitting : s.Fitting view c'
  committed : (view c'.world).committed = Issue.effects effect is (view c.world).committed

/-- The levels of the connection are open still, or none is and some statements are committed. -/
def Ends (s : Setup σ) (view : σ → Holdings D) (effect : Issue → D → D)
    (kept stray : List Issue) (c c' : Connection σ) : Prop :=
  s.Stays view effect kept c c' ∧ stray = [] ∨ s.Closes view effect stray c c'

/-- A transaction that was opened and kept: with the outermost one its statements are committed. -/
def Keeps (s : Setup σ) (view : σ → Holdings D) (effect : Issue → D → D)
    (kept : List Issue) (c c' : Connection σ) : Prop :=
  if c.depth = 0 then s.Closes view effect kept c c' else s.Stays view effect kept c c'

theorem Fitting.ne_closed (hl : s.Fitting view c) (hd : 0 < c.depth) :
    (view c.world).transaction ≠ .closed := Physical.Level.ne_closed hl hd

theorem Fitting.closed (hl : s.Fitting view c) (hd : c.depth = 0) :
    (view c.world).transaction = .closed := by
  unfold Fitting at hl
  rw [hd] at hl
  exact hl.eq_closed

theorem Stays.fitting (h : s.Stays view effect is c c₁) (hl : s.Fitting view c) :
    s.Fitting view c₁ := by
  unfold Fitting
  rw [h.depth]
  exact hl.resumed h.pos h.resumed

theorem Stays.committed (h : s.Stays view effect is c c₁) (hl : s.Fitting view c) :
    (view c₁.world).committed = (view c.world).committed := by
  rw [Holdings.committed_of_open h.resumed.1, Holdings.committed_of_open (hl.ne_closed h.pos),
    h.entry]

theorem Stays.trans (h₁ : s.Stays view effect is c c₁) (h₂ : s.Stays view effect js c₁ c₂) :
    s.Stays view effect (is ++ js) c c₂ where
  pos := h₁.pos
  depth := h₂.depth.trans h₁.depth
  resumed := h₁.resumed.trans h₂.resumed
  entry := h₂.entry.trans h₁.entry
  content := by rw [h₂.content, h₁.content, Issue.effects_append]

theorem Ends.fitting (h : s.Ends view effect kept stray c c₁) (hl : s.Fitting view c) :
    s.Fitting view c₁ := by
  rcases h with ⟨h, -⟩ | h
  · exact h.fitting hl
  · exact h.fitting

theorem Ends.committed (h : s.Ends view effect kept stray c c₁) (hl : s.Fitting view c) :
    (view c₁.world).committed = Issue.effects effect stray (view c.world).committed := by
  rcases h with ⟨h, rfl⟩ | h
  · exact h.committed hl
  · exact h.committed

theorem Ends.trans {kept' stray' : List Issue} (hl : s.Fitting view c)
    (h₁ : s.Ends view effect kept stray c c₁) (h₂ : s.Ends view effect kept' stray' c₁ c₂) :
    s.Ends view effect (kept ++ kept') (stray ++ stray') c c₂ := by
  rcases h₂ with ⟨h₂, rfl⟩ | h₂
  · rcases h₁ with ⟨h₁, rfl⟩ | h₁
    · exact .inl ⟨h₁.trans h₂, rfl⟩
    · exact absurd h₂.pos (h₁.depth ▸ Nat.lt_irrefl 0)
  · refine .inr ⟨h₂.depth, h₂.fitting, ?_⟩
    rw [h₂.committed, h₁.committed hl, Issue.effects_append]

/-- Nothing that the database holds has changed. -/
theorem Ends.of_eq (hl : s.Fitting view c) (hd : c₁.depth = c.depth)
    (hv : view c₁.world = view c.world) : s.Ends view effect [] [] c c₁ := by
  by_cases h0 : 0 < c.depth
  · refine .inl ⟨⟨h0, hd, ?_, by rw [hv], by rw [hv]; rfl⟩, rfl⟩
    rw [hv]
    exact .refl (hl.ne_closed h0)
  · refine .inr ⟨by omega, ?_, by rw [hv]; rfl⟩
    unfold Fitting
    rw [hd, hv]
    exact hl

theorem Keeps.of_moved {p : Physical} {h : Holdings D} (hl : s.Fitting view c)
    (hdepth : c₁.depth = c.depth) (hv : view c₁.world = h.moved p) (hopen : h.transaction ≠ .closed)
    (hzero : c.depth = 0 → p = .closed)
    (hpos : 0 < c.depth → Physical.Resumed s.config.dialect (view c.world).transaction p)
    (hentry : 0 < c.depth → h.entry = (view c.world).entry)
    (hcontent : h.content = Issue.effects effect is (view c.world).content) :
    s.Keeps view effect is c c₁ := by
  unfold Keeps
  by_cases h0 : c.depth = 0
  · obtain rfl := hzero h0
    rw [if_pos h0]
    refine ⟨hdepth.trans h0, ?_, ?_⟩
    · unfold Fitting
      rw [hv, hdepth, h0]
      exact .closed
    · rw [hv, Holdings.committed_of_closed (hl.closed h0)]
      exact hcontent
  · have hd : 0 < c.depth := Nat.pos_of_ne_zero h0
    rw [if_neg h0]
    refine ⟨hd, hdepth, ?_, ?_, ?_⟩
    · rw [hv]
      exact hpos hd
    · rw [hv, Holdings.entry_moved hopen, hentry hd]
    · rw [hv]
      exact hcontent

theorem Keeps.ends (h : s.Keeps view effect kept c c₁) :
    s.Ends view effect kept (if c.depth = 0 then kept else []) c c₁ := by
  unfold Keeps at h
  by_cases h0 : c.depth = 0
  · rw [if_pos h0] at h ⊢
    exact .inr h
  · rw [if_neg h0] at h ⊢
    exact .inl ⟨h, rfl⟩

theorem Keeps.stays (h : s.Keeps view effect kept c c₁) (hd : 0 < c.depth) :
    s.Stays view effect kept c c₁ := by
  unfold Keeps at h
  rwa [if_neg (Nat.pos_iff_ne_zero.1 hd)] at h

namespace Durable

variable (h : s.Durable view allowed effect)
include h

theorem closes_rolledBack
    (hc : (view c₁.world).committed = Issue.effects effect is (view c.world).committed) :
    s.Closes view effect is c (Act.rolledBack s c₁) := by
  obtain ⟨hclosed, hcontent⟩ := h.rollback c₁.world
  refine ⟨rfl, ?_, ?_⟩
  · unfold Fitting
    rw [Act.rolledBack_depth, Act.rolledBack_world, hclosed]
    exact .closed
  · rw [Act.rolledBack_world, Holdings.committed_of_closed hclosed, hcontent, hc]

theorem committed_rolledBack :
    (view (Act.rolledBack s c).world).committed = (view c.world).committed := by
  have hsame : (view c.world).committed = Issue.effects effect [] (view c.world).committed := rfl
  exact (h.closes_rolledBack hsame).committed

/-- A savepoint that is not opened leaves the transaction as it is, or ends it. -/
theorem ends_of_save_error {e : Error} (hl : s.Fitting view c)
    (hsave : Act.save.run s c = (.error e, c₁)) : s.Ends view effect [] [] c c₁ := by
  rcases Act.run_save_cases s c with ⟨r, w, -, hrun⟩ | ⟨e', w, hexec, hrun⟩
  · cases hsave.symm.trans hrun
  · obtain ⟨-, rfl⟩ := Prod.mk.inj (hsave.symm.trans hrun)
    have hsame : view w = view c.world := by
      have htakes := h.save (Act.nextName s c) hl
      rw [hexec] at htakes
      exact htakes
    unfold Act.unopened
    by_cases hf : e'.code.forcesRollback
    · rw [if_pos hf]
      exact .inr (h.closes_rolledBack (by dsimp only; rw [hsame]; rfl))
    · rw [if_neg hf]
      exact .of_eq hl rfl hsame

theorem opened_of_save_ok {name : String} (hl : s.Fitting view c)
    (hsave : Act.save.run s c = (.ok name, c₁)) :
    name = Act.nextName s c ∧ c₁.depth = c.depth + 1 ∧
      view c₁.world =
        (view c.world).moved ((view c.world).transaction.opened s.config.dialect name) := by
  rcases Act.run_save_cases s c with ⟨r, w, hexec, hrun⟩ | ⟨e, w, -, hrun⟩
  · obtain ⟨hname, rfl⟩ := Prod.mk.inj (hsave.symm.trans hrun)
    obtain rfl := Except.ok.inj hname
    have htakes := h.save (Act.nextName s c) hl
    rw [hexec] at htakes
    exact ⟨rfl, rfl, htakes⟩
  · cases hsave.symm.trans hrun

theorem fitting_of_save_ok {name : String} (hl : s.Fitting view c)
    (hsave : Act.save.run s c = (.ok name, c₁)) : s.Fitting view c₁ := by
  obtain ⟨-, hd₁, hv₁⟩ := h.opened_of_save_ok hl hsave
  unfold Fitting
  rw [hd₁, hv₁]
  exact hl.opened name

theorem pos_of_save_ok {name : String} (hl : s.Fitting view c)
    (hsave : Act.save.run s c = (.ok name, c₁)) : 0 < c₁.depth := by
  rw [(h.opened_of_save_ok hl hsave).2.1]
  exact Nat.succ_pos _

/-- The level around a body can be closed where the body has left it open. -/
theorem run_release {name : String} (hl : s.Fitting view c)
    (hsave : Act.save.run s c = (.ok name, c₁))
    (hbody : s.Ends view effect kept stray c₁ c₂) :
    (∃ c₃, (Act.release name).run s c₂ = (.ok (), c₃) ∧ s.Keeps view effect kept c c₃) ∨
    ∃ e c₃, (Act.release name).run s c₂ = (.error e, c₃) ∧
      (view c₃.world).committed = (view c₂.world).committed := by
  obtain ⟨rfl, hd₁, hv₁⟩ := h.opened_of_save_ok hl hsave
  by_cases hopen : ∃ k, Savepoint.depth? (Act.nextName s c) = some k ∧ k < c₂.depth
  · obtain ⟨k, hk, hlt⟩ := hopen
    have hs : s.Stays view effect kept c₁ c₂ := by
      rcases hbody with ⟨hs, -⟩ | hc
      · exact hs
      · exact absurd hlt (hc.depth ▸ Nat.not_lt_zero k)
    obtain rfl := Act.eq_depth_of_nextName hk
    have hresumed := hs.resumed
    rw [hv₁] at hresumed
    have hcontent : (view c₂.world).content = Issue.effects effect kept (view c.world).content := by
      rw [hs.content, hv₁]
      rfl
    have hentry (h0 : 0 < c.depth) : (view c₂.world).entry = (view c.world).entry := by
      rw [hs.entry, hv₁, Holdings.entry_moved (hl.ne_closed h0)]
    rcases Act.run_release_cases (s := s) hk hlt with ⟨hnone, hrun⟩ | ⟨sql, hsql, hrun⟩
    · -- SQL Server has no statement for an inner level
      obtain ⟨hserver, h0⟩ := level_of_releaseText?_eq_none hnone
      refine .inl ⟨_, hrun, ?_⟩
      unfold Keeps
      rw [if_neg (Nat.pos_iff_ne_zero.1 h0)]
      refine { pos := h0, depth := rfl, resumed := ⟨hs.resumed.1, fun hlite => ?_⟩,
               entry := hentry h0, content := hcontent }
      rw [hserver] at hlite
      cases hlite
    · obtain ⟨p, htakes, hzero, hpos⟩ := h.release hl hresumed hsql
      rcases hrun with ⟨r, w, hexec, hrun⟩ | ⟨e, w, hexec, hrun⟩
      · rw [hexec] at htakes
        refine .inl ⟨_, hrun, ?_⟩
        exact .of_moved hl rfl htakes hs.resumed.1 hzero hpos hentry hcontent
      · rw [hexec] at htakes
        change view w = _ at htakes
        refine .inr ⟨_, _, hrun, ?_⟩
        unfold Act.unreleased
        by_cases hb : e.code = .busy
        · rw [if_pos hb, h.committed_rolledBack, htakes]
        · rw [if_neg hb, htakes]
  · exact .inr ⟨_, _, Act.run_release_stale fun k hk hlt => hopen ⟨k, hk, hlt⟩, rfl⟩

/-- What a transaction around an action leaves. -/
theorem run_transaction {body : Act σ α} (hl : s.Fitting view c) {name : String}
    (hsave : Act.save.run s c = (.ok name, c₁))
    (hbody : s.Ends view effect kept stray c₁ (body.run s c₁).2) :
    (∃ a c', (Act.runInTransaction body).run s c = (.ok a, c') ∧ s.Keeps view effect kept c c') ∨
    ∃ e c', (Act.runInTransaction body).run s c = (.error e, c') ∧
      s.Closes view effect stray c c' := by
  obtain ⟨-, -, hv₁⟩ := h.opened_of_save_ok hl hsave
  have hl₁ := h.fitting_of_save_ok hl hsave
  -- so far nothing was committed
  have hcommitted : (view c₁.world).committed = (view c.world).committed := by
    rw [hv₁, Holdings.committed_moved (Physical.opened_ne_closed _ _ _)]
  rw [Act.run_runInTransaction_eq, hsave]
  dsimp only
  have hc := hbody.committed hl₁
  rw [hcommitted] at hc
  rcases hb : body.run s c₁ with ⟨e | a, c₂⟩
  · rw [hb] at hc
    exact .inr ⟨e, _, rfl, h.closes_rolledBack hc⟩
  · rw [hb] at hbody hc
    dsimp only
    rcases h.run_release hl hsave hbody with ⟨c₃, hrel, hkeeps⟩ | ⟨e, c₃, hrel, hsame⟩
    · rw [hrel]
      exact .inl ⟨a, c₃, rfl, hkeeps⟩
    · rw [hrel]
      exact .inr ⟨e, _, rfl, h.closes_rolledBack (hsame.trans hc)⟩

end Durable

end Setup

namespace Work

/-- The statements that a program carries out, except those of its transactions that fail. -/
def stays (s : Setup σ) {α : Type} : Work allowed α → Connection σ → List Issue
  | done _, _ => []
  | issue i _ next, c =>
    let r := i.reply s.driver c.world
    (if r.1.isOk then [i] else []) ++
      (next (r.1.mapError Error.storage)).stays s { c with world := r.2 }
  | transact body next, c =>
    let r := (Act.runInTransaction body.act).run s c
    (if r.1.isOk then body.stays s (Act.save.run s c).2 else []) ++ (next r.1).stays s r.2

/-- The statements of a program that no rollback undoes any more: those carried out where no level
is open, alone or in a transaction that succeeds, and those that stray out of a transaction that
fails. -/
def strays (s : Setup σ) {α : Type} : Work allowed α → Connection σ → List Issue
  | done _, _ => []
  | issue i _ next, c =>
    let r := i.reply s.driver c.world
    (if c.depth = 0 ∧ r.1.isOk then [i] else []) ++
      (next (r.1.mapError Error.storage)).strays s { c with world := r.2 }
  | transact body next, c =>
    let r := (Act.runInTransaction body.act).run s c
    (match r.1, Act.save.run s c with
      | .ok _, (_, c₁) => if c.depth = 0 then body.stays s c₁ else []
      | .error _, (.ok _, c₁) => body.strays s c₁
      | .error _, (.error _, _) => []) ++ (next r.1).strays s r.2

/-- After a transaction that fails, the program makes no further call. -/
def Stops {α : Type} : Work allowed α → Prop
  | done _ => True
  | issue _ _ next => ∀ r, (next r).Stops
  | transact body next =>
    body.Stops ∧ (∀ a, (next (.ok a)).Stops) ∧ ∀ e, ∃ r, next (.error e) = done r

theorem strays_transact_ok {body : Work allowed β} {next : Except Error β → Work allowed α} {b : β}
    (h : (Act.runInTransaction body.act).run s c = (.ok b, c₁)) :
    (transact body next).strays s c =
      (if c.depth = 0 then body.stays s (Act.save.run s c).2 else []) ++
        (next (.ok b)).strays s c₁ := by
  rw [strays, h]

theorem strays_transact_error {body : Work allowed β} {next : Except Error β → Work allowed α}
    {e : Error} {name : String} {c' : Connection σ} (hsave : Act.save.run s c = (.ok name, c'))
    (h : (Act.runInTransaction body.act).run s c = (.error e, c₁)) :
    (transact body next).strays s c = body.strays s c' ++ (next (.error e)).strays s c₁ := by
  rw [strays, h, hsave]

variable (h : s.Durable view allowed effect)
include h

theorem ends_issue {i : Issue} (hi : allowed i) (hl : s.Fitting view c) :
    s.Ends view effect (if (i.reply s.driver c.world).1.isOk then [i] else [])
      (if c.depth = 0 ∧ (i.reply s.driver c.world).1.isOk then [i] else []) c
      { c with world := (i.reply s.driver c.world).2 } := by
  have htakes := h.statement c.world hi
  rcases hr : i.reply s.driver c.world with ⟨e | r, w⟩ <;> rw [hr] at htakes
  · have hsame : view w = view c.world := htakes
    have hends : s.Ends view effect [] [] c { c with world := w } := .of_eq hl rfl hsame
    simpa [Except.isOk, Except.toBool] using hends
  · have hdone : view w = (view c.world).withContent (effect i (view c.world).content) :=
      htakes
    by_cases h0 : c.depth = 0
    · refine .inr ⟨h0, ?_, ?_⟩
      · unfold Setup.Fitting
        rw [hdone]
        exact hl
      · have hclosed := hl.closed h0
        rw [if_pos ⟨h0, rfl⟩, hdone, Holdings.committed_withContent hclosed,
          Holdings.committed_of_closed hclosed]
        rfl
    · have hd : 0 < c.depth := Nat.pos_of_ne_zero h0
      refine .inl ⟨⟨hd, rfl, ?_, ?_, ?_⟩, if_neg fun hn => h0 hn.1⟩
      · rw [hdone]
        exact .refl (hl.ne_closed hd)
      · rw [hdone]
        rfl
      · rw [hdone]
        rfl

/-- What any program leaves. -/
theorem ends (p : Work allowed α) (hl : s.Fitting view c) :
    s.Ends view effect (p.stays s c) (p.strays s c) c (p.act.run s c).2 := by
  induction p generalizing c with
  | done r => exact .of_eq hl rfl rfl
  | issue i hi next ih =>
    have hfirst := ends_issue h hi hl
    rw [run_issue]
    exact hfirst.trans hl (ih _ (hfirst.fitting hl))
  | transact body next ihbody ih =>
    rw [run_transact]
    rcases hsave : Act.save.run s c with ⟨e | name, c₁⟩
    · have hrun := Act.run_runInTransaction_unopened body.act hsave
      have hfirst := h.ends_of_save_error hl hsave
      have hnext := ih (.error e) (hfirst.fitting hl)
      rw [stays, strays, hrun, hsave]
      exact hfirst.trans hl hnext
    · have hbody := ihbody (h.fitting_of_save_ok hl hsave)
      rcases h.run_transaction hl hsave hbody with ⟨b, c₂, hrun, hkeeps⟩ | ⟨e, c₂, hrun, hcloses⟩
      · rw [stays, strays_transact_ok hrun, hrun, hsave]
        have hfirst := hkeeps.ends
        exact hfirst.trans hl (ih _ (hfirst.fitting hl))
      · rw [stays, strays_transact_error hsave hrun, hrun]
        exact Setup.Ends.trans hl (.inr hcloses) (ih _ hcloses.fitting)

/-- Where a level is open, nothing strays out of a program that stops at the first transaction that
fails. -/
theorem strays_eq_nil (p : Work allowed α) (hl : s.Fitting view c) (hd : 0 < c.depth)
    (hp : p.Stops) : p.strays s c = [] := by
  induction p generalizing c with
  | done r => rfl
  | issue i hi next ih =>
    have hnone : ¬(c.depth = 0 ∧ (i.reply s.driver c.world).1.isOk) :=
      fun hn => Nat.pos_iff_ne_zero.1 hd hn.1
    rw [strays, if_neg hnone, List.nil_append]
    exact ih _ ((ends_issue h hi hl).fitting hl) hd (hp _)
  | transact body next ihbody ih =>
    obtain ⟨hbody, hok, herror⟩ := hp
    rcases hsave : Act.save.run s c with ⟨e | name, c₁⟩
    · have hrun := Act.run_runInTransaction_unopened body.act hsave
      obtain ⟨r, hnext⟩ := herror e
      rw [strays, hrun, hsave, hnext]
      rfl
    · have hl₁ := h.fitting_of_save_ok hl hsave
      rcases h.run_transaction hl hsave (ends h body hl₁) with
        ⟨b, c₂, hrun, hkeeps⟩ | ⟨e, c₂, hrun, -⟩
      · have hstays := hkeeps.stays hd
        rw [strays_transact_ok hrun, if_neg (Nat.pos_iff_ne_zero.1 hd), List.nil_append]
        exact ih _ (hstays.fitting hl) (hstays.depth ▸ hd) (hok b)
      · obtain ⟨r, hnext⟩ := herror e
        rw [strays_transact_error hsave hrun, hnext, ihbody hl₁ (h.pos_of_save_ok hl hsave) hbody]
        rfl

/-- A transaction around a program, started where no level is open, that fails: what is committed is
the content at its start and after it the statements that strayed out. Those are none in a program
that stops at the first transaction in it that fails. -/
theorem committed_of_error (body : Work allowed α) {c' : Connection σ} {e : Error}
    (hdepth : c.depth = 0) (hclosed : (view c.world).transaction = .closed)
    (hrun : (Act.runInTransaction body.act).run s c = (.error e, c')) :
    (view c'.world).committed =
        Issue.effects effect ((transact body .done).strays s c) (view c.world).committed ∧
      (body.Stops → (view c'.world).committed = (view c.world).committed) := by
  have hl : s.Fitting view c := by
    unfold Setup.Fitting
    rw [hdepth, hclosed]
    exact .closed
  have hends := (ends h (transact body .done) hl).committed hl
  rw [run_transact, hrun] at hends
  change (view c'.world).committed = _ at hends
  refine ⟨hends, fun hstops => ?_⟩
  have hnone : (transact body .done).strays s c = [] := by
    rcases hsave : Act.save.run s c with ⟨e' | name, c₁⟩
    · rw [strays, hrun, hsave]
      rfl
    · rw [strays_transact_error hsave hrun, strays_eq_nil h body (h.fitting_of_save_ok hl hsave)
        (h.pos_of_save_ok hl hsave) hstops]
      rfl
  rw [hends, hnone]
  rfl

end Work

/-- A database whose content is the statements that it carried out. -/
def Samples.diaryReply (sql : String) (h : Holdings (List String)) :
    Except StorageError Unit × Holdings (List String) :=
  match Samples.liteCommand? sql.toList with
  | none => (.ok (), h.withContent (h.content ++ [sql]))
  | some .rollback => (.ok (), ⟨.closed, h.committed, h.committed⟩)
  | some (.rollbackTo _) => (.error .closed, h)
  | some k =>
    match h.transaction.after k with
    | some p => (.ok (), h.moved p)
    | none => (.error .closed, h)

def Samples.diarySetup : Setup (Holdings (List String)) where
  driver :=
    .buffered (fun sql _ h => ((diaryReply sql h).1.map fun _ => {}, (diaryReply sql h).2))
      (fun sql _ h => ((diaryReply sql h).1.map fun _ => {}, (diaryReply sql h).2))
      (fun _ => true) (fun h => (.ok (), h))
  config := .sqlite ":memory:"
  guid _ := .nil
  savepointNumber n := n

theorem Samples.diary_durable :
    Samples.diarySetup.Durable id (fun i => Samples.liteCommand? i.sql.toList = none)
      (fun i d => d ++ [i.sql]) where
  statement {i} w hi := by
    cases i <;> simp only [Issue.sql] at hi <;>
      simp [Issue.reply, Samples.diarySetup, Driver.buffered, Samples.diaryReply, hi, Issue.sql,
        Holdings.Takes, Except.map]
  command {k p sql w} ht hp hk := by
    have hc := Samples.liteCommand?_text ht
    have hp : w.transaction.after k = some p := hp
    cases k <;>
      first
      | exact hk.elim
      | simp [Samples.diarySetup, Driver.buffered, Samples.diaryReply, hc, hp, Holdings.Takes,
          Except.map]
  first hd := by cases hd
  rollback w := ⟨rfl, rfl⟩

/-- A transaction that fails and a statement after it, both in a transaction. -/
def Samples.strayingInsert :
    Work (fun i => Samples.liteCommand? i.sql.toList = none) Unit :=
  .transact (.done (α := Unit) (.error (.invalidOperation (.other "inner")))) fun _ =>
    .issue (.execute "insert into t(a) values (1)" []) (by decide) fun _ => .done (.ok ())

theorem Samples.strayingInsert_committed :
    ∃ e c', (Act.runInTransaction Samples.strayingInsert.act).run Samples.diarySetup
        { world := ⟨.closed, [], []⟩ } = (.error e, c') ∧
      c'.world.committed = ["insert into t(a) values (1)"] := by
  have hfails : ((Act.runInTransaction Samples.strayingInsert.act).run Samples.diarySetup
      { world := ⟨.closed, [], []⟩ }).1.isOk = false := by decide +kernel
  rcases hrun : (Act.runInTransaction Samples.strayingInsert.act).run Samples.diarySetup
    { world := ⟨.closed, [], []⟩ } with ⟨e | a, c'⟩
  · have hstrays := (Work.committed_of_error Samples.diary_durable Samples.strayingInsert rfl rfl
      hrun).1
    refine ⟨e, c', rfl, hstrays.trans ?_⟩
    decide +kernel
  · rw [hrun] at hfails
    cases hfails

end RowLedger
