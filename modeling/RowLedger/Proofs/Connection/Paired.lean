import RowLedger.Proofs.Ledger.Inserting

/-!
Two runs side by side. Where the parts of the calls answer the same from connections that belong
together, and leave connections that belong together, so does what is made of them.
-/

namespace RowLedger.Act

variable {σ τ α β : Type} {s : Setup σ} {s' : Setup τ} {R : Connection σ → Connection τ → Prop}

/-- From connections that belong together two actions answer the same, and leave such again. -/
def Paired (s : Setup σ) (s' : Setup τ) (R : Connection σ → Connection τ → Prop) (x : Act σ α)
    (y : Act τ α) : Prop :=
  ∀ c d, R c d → ∃ r c' d', x.run s c = (r, c') ∧ y.run s' d = (r, d') ∧ R c' d'

namespace Paired

theorem pure (a : α) : Paired s s' R (pure a) (pure a) :=
  fun c d h => ⟨.ok a, c, d, rfl, rfl, h⟩

theorem ofExcept (r : Except Error α) : Paired s s' R (ofExcept r) (ofExcept r) :=
  fun c d h => ⟨r, c, d, rfl, rfl, h⟩

theorem attempt {x : Act σ α} {y : Act τ α} (h : Paired s s' R x y) :
    Paired s s' R (attempt x) (attempt y) := by
  intro c d hcd
  obtain ⟨r, c', d', hx, hy, hcd'⟩ := h c d hcd
  refine ⟨.ok r, c', d', ?_, ?_, hcd'⟩
  · rw [run_attempt, hx]
  · rw [run_attempt, hy]

/-- The second actions are only asked about what the first ones may answer. -/
theorem bind_of {x : Act σ α} {y : Act τ α} {f : α → Act σ β} {g : α → Act τ β}
    (h : Paired s s' R x y)
    (hf : ∀ c d a c', R c d → x.run s c = (.ok a, c') → Paired s s' R (f a) (g a)) :
    Paired s s' R (x >>= f) (y >>= g) := by
  intro c d hcd
  obtain ⟨r, c', d', hx, hy, hcd'⟩ := h c d hcd
  cases r with
  | error e => exact ⟨.error e, c', d', run_bind_error f hx, run_bind_error g hy, hcd'⟩
  | ok a =>
    obtain ⟨r, c'', d'', hx', hy', hcd''⟩ := hf c d a c' hcd hx c' d' hcd'
    exact ⟨r, c'', d'', (run_bind_ok f hx).trans hx', (run_bind_ok g hy).trans hy', hcd''⟩

theorem bind {x : Act σ α} {y : Act τ α} {f : α → Act σ β} {g : α → Act τ β}
    (h : Paired s s' R x y) (hf : ∀ a, Paired s s' R (f a) (g a)) :
    Paired s s' R (x >>= f) (y >>= g) := h.bind_of fun _ _ a _ _ _ => hf a

theorem ofExcept_bind {r : Except Error α} {f : α → Act σ β} {g : α → Act τ β}
    (hf : ∀ a, Paired s s' R (f a) (g a)) :
    Paired s s' R (Act.ofExcept r >>= f) (Act.ofExcept r >>= g) := (ofExcept r).bind hf

theorem ite {p : Prop} [Decidable p] {x x' : Act σ α} {y y' : Act τ α} (h : Paired s s' R x y)
    (h' : Paired s s' R x' y') :
    Paired s s' R (if p then x else x') (if p then y else y') := by
  split
  · exact h
  · exact h'

theorem forM {f : α → Act σ PUnit} {g : α → Act τ PUnit} (as : List α)
    (hf : ∀ a, Paired s s' R (f a) (g a)) : Paired s s' R (as.forM f) (as.forM g) := by
  induction as with
  | nil => exact .pure _
  | cons a as ih => exact (hf a).bind fun _ => ih

theorem dialect_bind {f : Dialect → Act σ α} {g : Dialect → Act τ α}
    (hs : s'.config.dialect = s.config.dialect)
    (hf : Paired s s' R (f s.config.dialect) (g s.config.dialect)) :
    Paired s s' R (dialect >>= f) (dialect >>= g) := by
  have hd (d : Connection τ) :
      (dialect >>= g).run s' d = (g s.config.dialect).run s' d := by
    rw [← hs]
    rfl
  intro c d hcd
  rw [hd]
  exact hf c d hcd

end Paired

/-- The parts of an insert and of its entry go side by side. -/
structure Pairing (s : Setup σ) (s' : Setup τ) (known : RecordType → Mapping → Prop)
    (R : Connection σ → Connection τ → Prop) : Prop where
  dialect : s'.config.dialect = s.config.dialect
  ready {c : Connection σ} {d : Connection τ} : R c d → d.ledgerReady = c.ledgerReady
  exec (sql : Sql) (params : List Param) : Paired s s' R (exec sql params) (exec sql params)
  query (sql : Sql) (params : List Param) : Paired s s' R (query sql params) (query sql params)
  drawGuid : Paired s s' R drawGuid drawGuid
  setReady : Paired s s' R (update fun c => { c with ledgerReady := true })
    (update fun c => { c with ledgerReady := true })
  notify (m : Mapping) (action : Action) : Paired s s' R (notify m action) (notify m action)
  mapping (t : RecordType) : Paired s s' R (mapping t) (mapping t)
  /-- The mappings that are in use. -/
  knows {t : RecordType} {m : Mapping} {c c' : Connection σ} {d : Connection τ} : R c d →
    (Act.mapping t).run s c = (.ok m, c') → known t m
  insertCommand {t : RecordType} {m : Mapping} (mode : InsertMode) : known t m →
    Paired s s' R (insertCommand t m mode) (insertCommand t m mode)

/-- An entry of the ledger brings its identifier, and any other record is given one. -/
theorem of_run_identify {c c' : Connection σ} {m : Mapping} {e e' : Entity} {g : Guid}
    (hrun : (identify m e).run s c = (.ok (e', g), c')) :
    (e' = e ∨ m.set e m.sync (.guid g) = .ok e') ∧ c'.world = c.world := by
  unfold identify at hrun
  rw [run_ite] at hrun
  split at hrun
  · split at hrun
    · cases hrun
      exact ⟨.inl rfl, rfl⟩
    · rw [run_bind_ok _ run_drawGuid] at hrun
      cases hrun
      exact ⟨.inl rfl, rfl⟩
  · rw [run_bind_ok _ run_drawGuid] at hrun
    obtain ⟨e₁, c₁, hset, hrun⟩ := of_run_bind_ok hrun
    rw [run_ofExcept] at hset
    cases hrun
    obtain ⟨hwritten, rfl⟩ := Prod.mk.inj hset
    exact ⟨.inr hwritten, rfl⟩

theorem type_of_run_prepare {c c' : Connection σ} {m : Mapping} {e e' : Entity} {g : Guid}
    (hrun : (prepare m e).run s c = (.ok (e', g), c')) : e'.type = e.type := by
  obtain ⟨⟨e₁, g₁⟩, c₁, hidentify, hrun⟩ := of_run_bind_ok hrun
  obtain ⟨e₂, c₂, hfill, hrun⟩ := of_run_bind_ok hrun
  cases hrun
  obtain ⟨r, n, hr, -, htype⟩ := run_fillKey (s := s) (c := c₁) m e₁
  refine (htype _ (Prod.mk.inj (hr.symm.trans hfill)).1).trans ?_
  obtain ⟨rfl | hset, -⟩ := of_run_identify hidentify
  · rfl
  · exact Mapping.type_of_set hset

namespace Pairing

variable {known : RecordType → Mapping → Prop} (P : Pairing s s' known R)
include P

theorem issue (sql : Sql) : Paired s s' R (issue sql) (issue sql) :=
  (P.exec sql []).bind fun _ => .pure _

theorem createTable (m : Mapping) : Paired s s' R (createTable m) (createTable m) := by
  have hinfo : Paired s s' R (tableInfo m.table) (tableInfo m.table) :=
    .dialect_bind P.dialect ((P.query _ _).bind fun _ => .pure _)
  have hindexes (outcome : TableOutcome) :
      Paired s s' R (do
          (← Act.ofExcept m.indexes).forM fun i => Act.issue (s.config.dialect.createIndex i)
          return outcome)
        (do
          (← Act.ofExcept m.indexes).forM fun i => Act.issue (s.config.dialect.createIndex i)
          return outcome) :=
    .ofExcept_bind fun is => (Paired.forM is fun _ => P.issue _).bind fun _ => .pure _
  have hadd (c : Column) : Paired s s' R (addColumn m c) (addColumn m c) :=
    .dialect_bind P.dialect ((P.issue _).bind fun _ => .ite (P.issue _) (.pure _))
  refine .dialect_bind P.dialect (hinfo.bind fun existing => ?_)
  split
  · exact (P.issue _).bind fun _ => hindexes .created
  · exact (Paired.forM _ hadd).bind fun _ => hindexes .migrated

theorem prepare (m : Mapping) (e : Entity) : Paired s s' R (prepare m e) (prepare m e) := by
  have hidentify : Paired s s' R (identify m e) (identify m e) := by
    refine .ite ?_ (P.drawGuid.bind fun _ => .ofExcept_bind fun _ => .pure _)
    split
    · exact .pure _
    · exact P.drawGuid.bind fun _ => .pure _
  have hfill (e : Entity) : Paired s s' R (fillKey m e) (fillKey m e) := by
    unfold fillKey
    split
    · exact .pure _
    · exact .ite (P.drawGuid.bind fun _ => .ofExcept _) (.pure _)
  exact hidentify.bind fun _ => (hfill _).bind fun _ => .pure _

theorem store {m : Mapping} {e : Entity} (hm : known e.type m) (g : Guid) (mode : InsertMode) :
    Paired s s' R (store m e g mode) (store m e g mode) :=
  (P.insertCommand mode hm).bind fun _ => .ofExcept_bind fun _ => P.exec _ _

theorem insertRow {m : Mapping} {e : Entity} (hm : known e.type m) (mode : InsertMode) :
    Paired s s' R (insertRow m e mode) (insertRow m e mode) := by
  refine (P.prepare m e).attempt.bind_of fun c d r c' _ hr => ?_
  match r with
  | .error err => exact .pure _
  | .ok (e', g) =>
    -- The command is looked up by the type of the prepared record.
    have hprepare : (Act.prepare m e).run s c = (.ok (e', g), c') := by
      obtain ⟨h₁, h₂⟩ := Prod.mk.inj hr
      exact Prod.ext (Except.ok.inj h₁) h₂
    rw [← type_of_run_prepare hprepare] at hm
    refine (P.store hm g mode).attempt.bind fun r => ?_
    split
    · exact .pure _
    · refine .ite (.pure _) ?_
      split <;> exact .pure _

theorem ensureLedger : Paired s s' R ensureLedger ensureLedger := by
  have hinit : Paired s s' R initLedger initLedger :=
    (P.mapping _).bind fun m => (P.createTable m).bind fun _ => P.setReady
  -- The states are read for their marks alone, which are the same in both runs.
  have hrun {ρ : Type} (s : Setup ρ) (c : Connection ρ) : Act.ensureLedger.run s c =
      (if !c.ledgerReady then initLedger else Pure.pure ()).run s c := run_bind_ok _ run_state
  intro c d hcd
  rw [hrun s c, hrun s' d, P.ready hcd]
  exact Paired.ite hinit (.pure ()) c d hcd

theorem removeEntries (e : Expr) : Paired s s' R (removeEntries e) (removeEntries e) := by
  have htable : Paired s s' R ledgerTable ledgerTable := (P.mapping _).bind fun _ => .pure _
  exact htable.bind fun _ => .dialect_bind P.dialect
    (.ofExcept_bind fun _ => (P.exec _ _).bind fun _ => .pure _)

theorem addEntry (table : String) (row : Guid) (action : Action) :
    Paired s s' R (addEntry table row action) (addEntry table row action) := by
  refine (P.mapping _).bind_of fun _ _ m _ hcd hrun => ?_
  have hm : known (Ledger.Entry.toEntity table row action).type m := P.knows hcd hrun
  exact (P.insertRow hm .insert).bind fun _ => .ofExcept_bind fun _ => .pure _

theorem recordChange (m : Mapping) (row : Option Guid) (action : Action) :
    Paired s s' R (recordChange m row action) (recordChange m row action) := by
  refine .ite ?_ (.pure _)
  cases row with
  | none => exact P.notify m action
  | some g =>
    exact P.ensureLedger.bind fun _ =>
      ((P.removeEntries _).bind fun _ => P.addEntry m.table g action).bind fun _ =>
        P.notify m action

theorem insert (e : Entity) (mode : InsertMode) :
    Paired s s' R (insert e mode) (insert e mode) := by
  refine (P.mapping e.type).attempt.bind_of fun c d r c' hcd hr => ?_
  match r with
  | .error err => exact .pure _
  | .ok m =>
    have hm : known e.type m := by
      obtain ⟨h₁, h₂⟩ := Prod.mk.inj hr
      exact P.knows hcd (Prod.ext (Except.ok.inj h₁) h₂)
    refine (P.insertRow hm mode).bind fun w => ?_
    split
    · exact .pure _
    · exact .pure _
    · exact ((P.recordChange m _ .insert).bind fun _ => .pure _).attempt.bind fun _ => .pure _

end Pairing

end RowLedger.Act
