import RowLedger.Proofs.Cache.Derived
import RowLedger.Proofs.Connection.Work

/-!
The statements that reach the database. Beside the state that the driver acts on, every statement
is noted with its parameters; a change that is entered in the ledger shows there as the removal of
the earlier entry of its row and the insertion of the new one.
-/

namespace RowLedger

/-- A state with the statements that were issued on it. -/
structure Traced (σ : Type) where
  base : σ
  issues : List Issue := []

section

variable {σ : Type}

/-- The driver, which does not see what was noted. -/
def Driver.traced (d : Driver σ) : Driver (Traced σ) where
  execute sql params w :=
    ((d.execute sql params w.base).1,
      ⟨(d.execute sql params w.base).2, w.issues ++ [.execute sql params]⟩)
  query sql params w :=
    ((d.query sql params w.base).1,
      ⟨(d.query sql params w.base).2, w.issues ++ [.query sql params]⟩)
  scalar sql params w :=
    ((d.scalar sql params w.base).1,
      ⟨(d.scalar sql params w.base).2, w.issues ++ [.scalar sql params]⟩)
  openCursor sql params w :=
    ((d.openCursor sql params w.base).1,
      ⟨(d.openCursor sql params w.base).2, w.issues ++ [.query sql params]⟩)
  nextRow cursor w :=
    ((d.nextRow cursor w.base).1, { w with base := (d.nextRow cursor w.base).2 })
  closeCursor cursor w :=
    ((d.closeCursor cursor w.base).1, { w with base := (d.closeCursor cursor w.base).2 })
  isOpen w := d.isOpen w.base
  close w := ((d.close w.base).1, { w with base := (d.close w.base).2 })

def Setup.traced (s : Setup σ) : Setup (Traced σ) where
  driver := s.driver.traced
  config := s.config
  guid := s.guid
  savepointNumber := s.savepointNumber

/-- What a subscriber does to the state of the driver is no statement of the connection. -/
def Subscriber.traced (b : Subscriber σ) : Subscriber (Traced σ) where
  id := b.id
  onChange change w := { w with base := b.onChange change w.base }

/-- The connection, with the statements that were noted so far. -/
def Connection.traced (c : Connection σ) (issues : List Issue) : Connection (Traced σ) :=
  { c with world := ⟨c.world, issues⟩, subscribers := c.subscribers.map Subscriber.traced }

end

/-- The statements that make a table or migrate it, with the listing of its columns. -/
inductive Issue.Creates (d : Dialect) : Issue → Prop
  | listing (table : String) : Creates d (.query (d.render (d.tableInfo table)) [])
  | statement {sql : Sql} (h : TableStatement d sql) : Creates d (.execute (d.render sql) [])

namespace Act

variable {σ : Type} {s : Setup σ}

theorem foldl_traced (change : Change) (bs : List (Subscriber σ)) (w : σ) (is : List Issue) :
    (bs.map Subscriber.traced).foldl (fun w b => b.onChange change w) ⟨w, is⟩ =
      ⟨bs.foldl (fun w b => b.onChange change w) w, is⟩ := by
  induction bs generalizing w with
  | nil => rfl
  | cons b bs ih => exact ih (b.onChange change w)

/-- What is noted makes no difference. -/
theorem pairing_traced (s : Setup σ) :
    Pairing s s.traced (fun _ _ => True) fun c d => ∃ is, d = c.traced is where
  dialect := rfl
  ready := by
    rintro c _ ⟨is, rfl⟩
    rfl
  exec sql params := by
    rintro c _ ⟨is, rfl⟩
    exact ⟨_, _, _, rfl, rfl, _, rfl⟩
  query sql params := by
    rintro c _ ⟨is, rfl⟩
    exact ⟨_, _, _, rfl, rfl, _, rfl⟩
  drawGuid := by
    rintro c _ ⟨is, rfl⟩
    exact ⟨_, _, _, rfl, rfl, is, rfl⟩
  setReady := by
    rintro c _ ⟨is, rfl⟩
    exact ⟨_, _, _, rfl, rfl, is, rfl⟩
  notify m action := by
    refine .ite (.pure _) ?_
    rintro c _ ⟨is, rfl⟩
    refine ⟨_, _, _, rfl, rfl, is, ?_⟩
    dsimp only [Connection.traced]
    rw [foldl_traced]
  mapping t := by
    rintro c _ ⟨is, rfl⟩
    rw [run_mapping_eq, run_mapping_eq, Connection.traced]
    dsimp only
    cases c.registry.mapping t <;> exact ⟨_, _, _, rfl, rfl, is, rfl⟩
  knows _ _ := trivial
  insertCommand mode _ := by
    rintro c _ ⟨is, rfl⟩
    rw [run_insertCommand_keep, run_insertCommand_keep]
    exact ⟨_, _, _, rfl, rfl, is, rfl⟩

theorem run_insert_traced (e : Entity) (mode : InsertMode) (c : Connection σ) (is : List Issue) :
    ∃ js, (insert e mode).run s.traced (c.traced is) =
      (((insert e mode).run s c).1, ((insert e mode).run s c).2.traced js) := by
  obtain ⟨r, c', _, hrun, htraced, js, rfl⟩ :=
    (pairing_traced s).insert e mode c (c.traced is) ⟨is, rfl⟩
  refine ⟨js, ?_⟩
  rw [hrun, htraced]

end Act

namespace Connection

variable {σ : Type}

/-- No subscriber touches what is noted. -/
def Discreet (c : Connection (Traced σ)) : Prop :=
  ∀ b ∈ c.subscribers, ∀ change w, (b.onChange change w).issues = w.issues

theorem discreet_traced (c : Connection σ) (is : List Issue) : (c.traced is).Discreet := by
  intro b hb change w
  obtain ⟨a, -, rfl⟩ := List.mem_map.1 hb
  rfl

/-- These statements were issued from one point to another, and no identifier was drawn. -/
structure Issued (is : List Issue) (c c' : Connection (Traced σ)) : Prop where
  issues : c'.world.issues = c.world.issues ++ is
  subscribers : c'.subscribers = c.subscribers
  drawn : c'.guidsDrawn = c.guidsDrawn

namespace Issued

variable {is js : List Issue} {c c₁ c₂ : Connection (Traced σ)}

theorem silent (hissues : c₁.world.issues = c.world.issues)
    (hsubscribers : c₁.subscribers = c.subscribers) (hdrawn : c₁.guidsDrawn = c.guidsDrawn) :
    Issued [] c c₁ := ⟨by rw [hissues, List.append_nil], hsubscribers, hdrawn⟩

theorem refl (c : Connection (Traced σ)) : Issued [] c c := silent rfl rfl rfl

theorem trans (h₁ : Issued is c c₁) (h₂ : Issued js c₁ c₂) : Issued (is ++ js) c c₂ where
  issues := by rw [h₂.issues, h₁.issues, List.append_assoc]
  subscribers := h₂.subscribers.trans h₁.subscribers
  drawn := h₂.drawn.trans h₁.drawn

theorem discreet (h : Issued is c c₁) (hc : c.Discreet) : c₁.Discreet := by
  unfold Discreet
  rw [h.subscribers]
  exact hc

end Issued

/-- Each statement that was issued from one point to another has a property. -/
def Issuing (P : Issue → Prop) (c c' : Connection (Traced σ)) : Prop :=
  ∃ is, c'.world.issues = c.world.issues ++ is ∧ ∀ i ∈ is, P i

namespace Issuing

variable {P : Issue → Prop} {i : Issue} {c c₁ c₂ : Connection (Traced σ)}

theorem refl (c : Connection (Traced σ)) : Issuing P c c :=
  ⟨[], (List.append_nil _).symm, fun _ hi => absurd hi List.not_mem_nil⟩

theorem silent (h : Issuing P c c₁) (hissues : c₂.world.issues = c₁.world.issues) :
    Issuing P c c₂ := by
  rwa [Issuing, hissues]

theorem snoc (h : Issuing P c c₁) (hissues : c₂.world.issues = c₁.world.issues ++ [i])
    (hi : P i) : Issuing P c c₂ := by
  obtain ⟨is, his, hall⟩ := h
  refine ⟨is ++ [i], by rw [hissues, his, List.append_assoc], fun j hj => ?_⟩
  rcases List.mem_append.1 hj with hj | hj
  · exact hall j hj
  · rwa [List.mem_singleton.1 hj]

end Issuing

end Connection

/-- The value that stands for an action in the ledger. -/
def Action.stored (a : Action) : SqlValue := .int ⟨a.ordinal.val, by cases a <;> decide⟩

theorem Action.toSql_toValue (a : Action) : a.toValue.toSql = .ok a.stored := by
  cases a <;> rfl

namespace Ledger

/-- The mapping of the ledger, with any flags. -/
def flagged (f : Flags) : Mapping := { mapping with flags := f }

theorem ofRecord_flagged (f : Flags) : Mapping.ofRecord recordType f = .ok (flagged f) := by
  obtain ⟨a, b, c⟩ := f
  cases a <;> cases b <;> cases c <;> decide +kernel

/-- The removal of the entries of a row. -/
def removal (d : Dialect) (row : Guid) : Issue :=
  let condition := Condition.equal "SyncGuid" ⟨"SyncGuid", row.stored⟩
  .execute (d.render (.word "delete from " :: .name tableName :: .word " where " :: condition.sql))
    condition.params

/-- The insertion of an entry. -/
def insertion (d : Dialect) (table : String) (row : Guid) (action : Action) : Issue :=
  .execute (d.render (InsertCommand.derive d mapping .insert).sql)
    [⟨"TableName", .text table⟩, ⟨"SyncGuid", row.stored⟩, ⟨"Action", action.stored⟩]

end Ledger

namespace Act

open Connection (Issued)

variable {σ α : Type} {s : Setup σ} {flags : RecordType → Flags} {first : Registry}
  {c c' : Connection (Traced σ)}

theorem issued_exec (sql : Sql) (params : List Param) (c : Connection (Traced σ)) :
    Issued [.execute (s.config.dialect.render sql) params] c ((exec sql params).run s.traced c).2 :=
  ⟨rfl, rfl, rfl⟩

theorem issued_execCount (sql : Sql) (params : List Param) (c : Connection (Traced σ)) :
    Issued [.execute (s.config.dialect.render sql) params] c
      ((execCount sql params).run s.traced c).2 := by
  have hexec := issued_exec (s := s) sql params c
  rw [execCount, run_bind]
  generalize (exec sql params).run s.traced c = r at hexec
  obtain ⟨_ | _, c'⟩ := r <;> exact hexec

theorem issued_notify (m : Mapping) (action : Action) (hc : c.Discreet) :
    Issued [] c ((notify m action).run s.traced c).2 := by
  unfold notify
  split
  · exact .refl c
  · refine .silent ?_ rfl rfl
    exact foldl_unchanged (fun b hb w => hc b hb ⟨m, action⟩ w) c.world

theorem keeps_issuing {P : Issue → Prop} {i : Issue} {x : Act (Traced σ) α}
    (h : ∀ c, (x.run s.traced c).2.world.issues = c.world.issues ++ [i]) (hi : P i)
    (c : Connection (Traced σ)) : Keeps s.traced (Connection.Issuing P c) x :=
  fun c' hc => hc.snoc (h c') hi

/-! Making the ledger. -/

/-- What was issued since a connection only makes tables. -/
def Creating (s : Setup σ) (c c' : Connection (Traced σ)) : Prop :=
  ∃ is, Issued is c c' ∧ ∀ i ∈ is, i.Creates s.config.dialect

theorem keeps_creating {x : Act (Traced σ) α}
    (h : ∀ c, Creating s c (x.run s.traced c).2) (c : Connection (Traced σ)) :
    Keeps s.traced (Creating s c) x := by
  rintro c₁ ⟨is, his, hall⟩
  obtain ⟨js, hjs, hall'⟩ := h c₁
  refine ⟨is ++ js, his.trans hjs, fun i hi => ?_⟩
  exact (List.mem_append.1 hi).elim (hall i) (hall' i)

theorem creating_of_silent (h : Issued [] c c') : Creating s c c' :=
  ⟨[], h, fun _ hi => absurd hi List.not_mem_nil⟩

theorem creating_createTable (m : Mapping) (c : Connection (Traced σ)) :
    Keeps s.traced (Creating s c) (createTable m) := by
  have hone {i : Issue} (hi : i.Creates s.config.dialect) {c c' : Connection (Traced σ)}
      (h : Issued [i] c c') : Creating s c c' :=
    ⟨[i], h, fun j hj => List.mem_singleton.1 hj ▸ hi⟩
  refine .createTable (fun sql hsql => ?_) (fun table => ?_) m
  · exact (keeps_creating (fun c => hone (.statement hsql) (issued_exec sql [] c)) c).bind
      fun _ => .pure _
  · exact keeps_creating (fun c => hone (.listing table) ⟨rfl, rfl, rfl⟩) c

theorem creating_initLedger (c : Connection (Traced σ)) :
    Creating s c ((initLedger : Act (Traced σ) Unit).run s.traced c).2 := by
  have hmapping : Keeps s.traced (Creating s c) (mapping Ledger.recordType) := by
    refine keeps_creating (fun c => creating_of_silent ?_) c
    rw [run_mapping_eq]
    rcases c.registry.mapping Ledger.recordType with e | ⟨sh, r⟩
    · exact .refl c
    · exact .silent rfl rfl rfl
  have hinit : Keeps s.traced (Creating s c) initLedger :=
    hmapping.bind fun m => (creating_createTable m c).bind fun _ =>
      keeps_creating (fun c => creating_of_silent (.silent rfl rfl rfl)) c
  exact hinit c (creating_of_silent (.refl c))

/-- Where the ledger is known to exist, nothing is issued for it. -/
theorem issued_ensureLedger (c : Connection (Traced σ)) :
    ∃ is, Issued is c ((ensureLedger : Act (Traced σ) Unit).run s.traced c).2 ∧
      (∀ i ∈ is, i.Creates s.config.dialect) ∧ (c.ledgerReady = true → is = []) := by
  rw [ensureLedger, run_bind_ok _ run_state]
  cases hready : c.ledgerReady with
  | true => exact ⟨[], .refl c, fun _ hi => absurd hi List.not_mem_nil, fun _ => rfl⟩
  | false =>
    obtain ⟨is, his, hall⟩ := creating_initLedger (s := s) c
    exact ⟨is, his, hall, fun h => absurd h Bool.false_ne_true⟩

/-! Entering a change. -/

theorem run_mapping_ledger {τ : Type} {s : Setup τ} {c : Connection τ}
    (hc : Coherent flags first c) :
    ∃ registry, (mapping Ledger.recordType).run s c =
        (.ok (Ledger.flagged (flags Ledger.recordType)), { c with registry }) ∧
      Coherent flags first { c with registry } := by
  have hfollows := hc.follows.mapping_eq Ledger.recordType
  rw [Ledger.ofRecord_flagged, except_map_ok] at hfollows
  obtain ⟨⟨sh, registry⟩, hm, hsh⟩ := hfollows
  refine ⟨registry, ?_, hc.mapping hm⟩
  rw [run_mapping_ok hm, ← hsh]

theorem issued_removeEntries (hc : Coherent flags first c) (row : Guid) :
    Issued [Ledger.removal s.config.dialect row] c
      ((removeEntries (ofRow row)).run s.traced c).2 := by
  obtain ⟨registry, hm, -⟩ := run_mapping_ledger (s := s.traced) hc
  let L := Ledger.flagged (flags Ledger.recordType)
  have htable : ledgerTable.run s.traced c =
      (.ok { type := Ledger.recordType, mapping := L }, { c with registry }) := run_bind_ok _ hm
  have hcompile : compile (ofRow row) L s.config.dialect =
      .ok (.equal "SyncGuid" ⟨"SyncGuid", row.stored⟩) := by
    rcases hd : s.config.dialect <;> rfl
  have hrun : (removeEntries (ofRow row)).run s.traced c =
      (deleteRows L (.equal "SyncGuid" ⟨"SyncGuid", row.stored⟩)).run s.traced
        { c with registry } := by
    rw [removeEntries, run_bind_ok _ htable, run_bind_ok _ run_dialect]
    exact run_bind_ok _ (congrArg (·, _) hcompile)
  rw [hrun]
  have hsame : Issued [] c { c with registry } := .silent rfl rfl rfl
  exact hsame.trans (issued_execCount _ _ _)

/-- An entry is bound without fail. -/
theorem params_flagged (f : Flags) (table : String) (row : Guid) (action : Action) :
    (Ledger.flagged f).insertColumns.mapM (fun i => (Ledger.flagged f).param i
      (if i = (Ledger.flagged f).sync then .guid row
        else (Ledger.flagged f).get (Ledger.Entry.toEntity table row action) i)) =
      .ok [⟨"TableName", .text table⟩, ⟨"SyncGuid", row.stored⟩, ⟨"Action", action.stored⟩] := by
  obtain ⟨stored, hstored, hparams⟩ := params_entry table row action
  cases hstored.symm.trans action.toSql_toValue
  exact hparams

/-- Once a record is prepared, an insert does no more than to store it. -/
theorem run_insertRow_prepared {τ : Type} {s : Setup τ} {c c₁ : Connection τ} {m : Mapping}
    {e e' : Entity} {g : Guid} (mode : InsertMode)
    (hp : (prepare m e).run s c = (.ok (e', g), c₁)) :
    ∃ w, (insertRow m e mode).run s c = (.ok w, ((store m e' g mode).run s c₁).2) := by
  rcases hst : (store m e' g mode).run s c₁ with ⟨err | r, c₂⟩
  · exact ⟨_, run_insertRow_unstored hp hst⟩
  · rw [run_insertRow hp hst]
    split
    · exact ⟨_, rfl⟩
    · cases m.withGeneratedKey e' r.lastId <;> exact ⟨_, rfl⟩

theorem issued_addEntry (hc : Coherent flags first c) (table : String) (row : Guid)
    (action : Action) :
    Issued [Ledger.insertion s.config.dialect table row action] c
      ((addEntry table row action).run s.traced c).2 := by
  obtain ⟨registry, hm, hc₁⟩ := run_mapping_ledger (s := s.traced) hc
  let L := Ledger.flagged (flags Ledger.recordType)
  let e := Ledger.Entry.toEntity table row action
  let params : List Param :=
    [⟨"TableName", .text table⟩, ⟨"SyncGuid", row.stored⟩, ⟨"Action", action.stored⟩]
  have hprepare : (prepare L e).run s.traced { c with registry } =
      (.ok (e, row), { c with registry }) := rfl
  obtain ⟨commands, -, hcommand⟩ :=
    run_insertCommand_derive (s := s.traced) hc₁ (Ledger.ofRecord_flagged L.flags) .insert
  have hstore := run_store_bound (e := e) hcommand (params_flagged L.flags table row action)
  -- the statement is issued whatever becomes of it, and nothing comes after it
  obtain ⟨⟨_, r⟩, hrow⟩ := run_insertRow_prepared .insert hprepare
  rw [hstore] at hrow
  have hrun : ((addEntry table row action).run s.traced c).2 =
      ((exec (InsertCommand.derive s.config.dialect L .insert).sql params).run s.traced
        { c with registry, commands }).2 := by
    rw [addEntry, run_bind_ok _ hm, run_bind_ok _ hrow]
    cases r <;> rfl
  have hsame : Issued [] c { c with registry, commands } := .silent rfl rfl rfl
  rw [hrun]
  exact hsame.trans (issued_exec _ _ _)

/-- A change of a row that is entered: the ledger may be made first, then the earlier entry of the
row goes and the new one comes. -/
theorem issued_recordChange {m : Mapping} (hm : isLedger m = false) (hc : Coherent flags first c)
    (hdiscreet : c.Discreet) {row : Guid} {action : Action}
    (hrun : (recordChange m (some row) action).run s.traced c = (.ok (), c')) :
    ∃ is, Issued (is ++ [Ledger.removal s.config.dialect row,
        Ledger.insertion s.config.dialect m.table row action]) c c' ∧
      (∀ i ∈ is, i.Creates s.config.dialect) ∧ (c.ledgerReady = true → is = []) := by
  obtain ⟨is, hensure, hall, hready⟩ := issued_ensureLedger (s := s) c
  rw [recordChange, hm, Bool.not_false, if_pos rfl] at hrun
  obtain ⟨⟨⟩, c₁, hready₁, hrun⟩ := of_run_bind_ok hrun
  obtain ⟨⟨⟩, c₃, hwrite, hnotify⟩ := of_run_bind_ok hrun
  obtain ⟨n, c₂, hremove, hadd⟩ := of_run_bind_ok hwrite
  have hc₁ := Blind.ensureLedger.coherent hc hready₁
  have hc₂ := (Blind.removeEntries (ofRow row)).coherent hc₁ hremove
  rw [hready₁] at hensure
  have hremoved := issued_removeEntries (s := s) hc₁ row
  rw [hremove] at hremoved
  have hadded := issued_addEntry (s := s) hc₂ m.table row action
  rw [hadd] at hadded
  -- what the subscribers are told comes last and issues nothing
  have hentered := (hensure.trans hremoved).trans hadded
  have hnotified := issued_notify (s := s) m action (hentered.discreet hdiscreet)
  rw [hnotify] at hnotified
  refine ⟨is, ?_, hall, hready⟩
  have := hentered.trans hnotified
  rwa [List.append_nil, List.append_assoc] at this

end Act

end RowLedger
