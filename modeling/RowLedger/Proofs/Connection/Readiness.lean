import RowLedger.Proofs.Connection.Announced
import RowLedger.Proofs.Connection.Catalogs

/-!
The note that the ledger is there, over runs of everything that a connection can do. Whatever may
undo the table of changes takes the note back, but for a change of the database.
-/

namespace RowLedger

namespace Act

variable {σ α : Type} {s : Setup σ} {view : σ → Databases} {c c' : Connection σ}

theorem ledgerReady_of_initLedger (h : initLedger.run s c = (.ok (), c')) :
    c'.ledgerReady = true := by
  rw [initLedger] at h
  obtain ⟨m, c₁, -, h⟩ := of_run_bind_ok h
  obtain ⟨outcome, c₂, -, h⟩ := of_run_bind_ok h
  cases h
  rfl

theorem known_recordType : Ledger.recordType.Known := fun _ => rfl

/-- Nothing that a rollback does to the tables can make a connection wrong that has forgotten. -/
theorem exec_forgetful (sql : Sql) (params : List Param) :
    Keeps s (Forgetful s view) (exec sql params) := fun _ hc =>
  ⟨hc.remembers.of_eq rfl rfl rfl, hc.forgotten⟩

theorem quietRollback_forgetful (hc : Remembers s view c) :
    Forgetful s view (quietRollback.run s c).2 :=
  ⟨hc.of_eq rfl rfl rfl, rfl⟩

theorem transacting_forgetful : Transacting s (Forgetful s view) where
  levels _ _ hc := ⟨hc.remembers.of_eq rfl rfl rfl, hc.forgotten⟩
  drawSavepointNumber _ hc := ⟨hc.remembers.of_eq rfl rfl rfl, hc.forgotten⟩
  begins := exec_forgetful _ _
  saves _ _ := exec_forgetful _ _
  releases _ := exec_forgetful _ _
  commits := exec_forgetful _ _
  quietRollback _ hc := quietRollback_forgetful hc.remembers

section

variable (K : s.KeepsTables view)
include K

theorem issue_upright {sql : Sql} (h : TableStatement s.config.dialect sql) :
    Keeps s (Upright s view) (issue sql) :=
  ((spares_table K h).upright K).bind fun _ => .pure _

theorem createTable_upright (m : Mapping) : Keeps s (Upright s view) (createTable m) :=
  .createTable (fun _ => issue_upright K) (fun table => query_upright K [] (.columns table)) m

theorem initLedger_upright : Keeps s (Upright s view) initLedger := by
  refine (mapping_upright known_recordType).bind_of fun c m c' hc hm => ?_
  have htable := table_of_mapping hc.remembers hm
  intro c hc
  have hcreated := createTable_upright K m c hc
  rw [run_bind]
  rcases hr : (createTable m).run s c with ⟨e | outcome, c₁⟩
  · rwa [hr] at hcreated
  · have hhas := has_of_createTable K hr
    rw [htable] at hhas
    rw [hr] at hcreated
    exact ⟨hcreated.remembers.of_eq rfl rfl rfl, fun _ => hhas⟩

theorem announcing_upright : Announcing s RecordType.Known fun _ => Upright s view where
  ledger := known_recordType
  mapping := mapping_upright
  drawGuid _ hc := ⟨hc.remembers.of_eq rfl rfl rfl, hc.honest⟩
  store := store_upright K
  writes _ h := (spares_rows K h).upright K
  queries params h := query_upright K params h
  scalars params h := scalar_upright K params h
  initLedger := initLedger_upright K
  notify {m} action hm c hc := by
    rw [Act.notify, hm]
    refine hc.atWorld fun hhas => ?_
    rwa [hc.remembers.view_foldl]

theorem transacting_upright : Transacting s (Upright s view) where
  levels _ _ hc := ⟨hc.remembers.of_eq rfl rfl rfl, hc.honest⟩
  drawSavepointNumber _ hc := ⟨hc.remembers.of_eq rfl rfl rfl, hc.honest⟩
  begins := (spares_levels K .begin).upright K
  saves number depth := (spares_levels K (.save number depth)).upright K
  releases h := (spares_levels K (.release h)).upright K
  commits := (spares_levels K .commit).upright K
  quietRollback _ hc := (quietRollback_forgetful hc.remembers).upright

theorem rollback_upright : Keeps s (Upright s view) rollback := by
  refine .state_bind fun c => ((transacting_upright K).setDepth 0).bind fun _ => .ite ?_ (.pure _)
  intro c hc
  -- the note is taken back before the statement, which may then do what it likes
  exact ((exec_forgetful s.config.dialect.rollback []).bind fun _ => .pure _)
    { c with ledgerReady := false } ⟨hc.remembers.of_eq rfl rfl rfl, rfl⟩ |>.upright

theorem rollbackTo_upright (name : String) : Keeps s (Upright s view) (rollbackTo name) := by
  refine .ite (rollback_upright K) ((Keeps.openDepth name).bind fun depth =>
    ((transacting_upright K).setDepth depth).bind fun _ => ?_)
  intro c hc
  have hreturn : Keeps s (Forgetful s view)
      (do execAtSavepoint ((← dialect).rollbackTo name)) :=
    .dialect_bind (transacting_forgetful.execAtSavepoint (exec_forgetful _ _))
  exact (hreturn { c with ledgerReady := false } ⟨hc.remembers.of_eq rfl rfl rfl, rfl⟩).upright

theorem dropTable_upright (m : Mapping) : Keeps s (Upright s view) (dropTable m) := by
  intro c hc
  rcases hr : s.driver.execute (s.config.dialect.render (Dialect.dropTable m.table)) [] c.world with
    ⟨e | r, w⟩
  · rw [dropTable, run_bind_error _ (run_execCount_error (run_exec_error hr))]
    refine hc.atWorld fun hhas => ?_
    rwa [K.failed hr]
  · rw [dropTable, run_bind_ok _ (run_execCount_ok (run_exec_ok hr))]
    by_cases hm : m.table = Ledger.tableName
    · rw [if_pos hm]
      exact Forgetful.upright ⟨hc.remembers.of_eq rfl rfl rfl, rfl⟩
    · rw [if_neg hm]
      refine hc.atWorld fun hhas => ?_
      rw [K.drops hr]
      exact hhas.withoutTable (Ne.symm hm)

theorem createIndex_upright (name : Option String) (table : String) (columns : List String)
    (unique : Bool) : Keeps s (Upright s view) (createIndex name table columns unique) :=
  .dialect_bind (issue_upright K (.createIndex _))

theorem createIndexOn_upright {t : RecordType} (ht : t.Known) (field : String) (unique : Bool) :
    Keeps s (Upright s view) (createIndexOn t field unique) :=
  (mapping_upright ht).bind fun m => .ofExcept_bind fun c _ =>
    createIndex_upright K none m.table [c.name] unique

theorem createDatabase_upright (name : String) :
    Keeps s (Upright s view) (createDatabase name) := by
  refine .dialect_bind ?_
  unfold issueIfAny
  split
  next sql hsql =>
    have hspares : Spares s view Ledger.tableName sql [] :=
      .of_same fun _ _ _ => K.createsDatabase hsql
    exact ((hspares.upright K).bind fun _ => .pure _).bind fun _ => .pure _
  · exact .pure _

/-! Reading. -/

theorem nextRow_upright (cursor : Cursor) : Keeps s (Upright s view) (nextRow cursor) :=
  call_upright fun w => (K.cursors cursor w).1

theorem closeCursor_upright (cursor : Cursor) : Keeps s (Upright s view) (closeCursor cursor) :=
  call_upright fun w => (K.cursors cursor w).2

theorem nextRecord_upright (rows : DeferredRows) : Keeps s (Upright s view) (nextRecord rows) := by
  unfold nextRecord
  refine .ite (.pure _) ((nextRow_upright K rows.cursor).attempt.bind fun r => ?_)
  split
  · exact .pure _
  · exact .pure _
  · exact (closeCursor_upright K rows.cursor).bind fun _ => .pure _

theorem dropRows_upright (rows : DeferredRows) : Keeps s (Upright s view) (dropRows rows) :=
  .ite ((closeCursor_upright K rows.cursor).bind fun _ => .pure _) (.pure _)

theorem firstOf_upright (rows : DeferredRows) : Keeps s (Upright s view) (firstOf rows) := by
  refine (nextRecord_upright K rows).bind fun r => (dropRows_upright K r.2).bind fun _ => ?_
  split
  · exact .pure _
  · exact (Keeps.ofExcept _).bind fun _ => .pure _

theorem openRows_upright {sql : Sql} (h : Reading s.config.dialect sql) (t : RecordType)
    (m : Mapping) (params : List Param) :
    Keeps s (Upright s view) (openRows t m (s.config.dialect.render sql) params) :=
  (call_upright fun w => (K.reads params w h).2.2).bind fun _ => .pure _

theorem find_upright {t : RecordType} (ht : t.Known) (key : Value) :
    Keeps s (Upright s view) (find t key) := by
  refine (mapping_upright ht).bind fun m => .dialect_bind (.ofExcept_bind fun k hk => ?_)
  exact (openRows_upright K (.byKey hk) t m k.params).bind fun rows => firstOf_upright K rows

theorem toList_upright (q : TableQuery) : Keeps s (Upright s view) (toList q) :=
  .dialect_bind (.ofExcept_bind fun k hk =>
    (query_upright K k.params (.select hk)).bind fun _ => .ofExcept _)

theorem iterate_upright (q : TableQuery) : Keeps s (Upright s view) (iterate q) :=
  .ite
    (.dialect_bind (.ofExcept_bind fun k hk =>
      (openRows_upright K (.select hk) q.type q.mapping k.params).bind fun _ => .pure _))
    ((toList_upright K q).bind fun _ => .pure _)

theorem nextOf_upright (rows : Records) : Keeps s (Upright s view) (nextOf rows) := by
  unfold nextOf
  split
  · exact .pure _
  · exact .pure _
  · exact (nextRecord_upright K _).bind fun _ => .pure _

theorem dropRecords_upright (rows : Records) : Keeps s (Upright s view) (dropRecords rows) := by
  unfold dropRecords
  split
  · exact .pure _
  · exact dropRows_upright K _

theorem count_upright (q : TableQuery) : Keeps s (Upright s view) (count q) :=
  .dialect_bind (.ofExcept_bind fun k hk =>
    ((scalar_upright K k.params (.count hk)).bind fun _ => .ofExcept _).bind fun _ => .pure _)

theorem history_upright : Keeps s (Upright s view) history :=
  (announcing_upright K).ensureLedger.bind fun _ =>
    (announcing_upright K).ledgerTable.bind fun _ => (toList_upright K _).bind fun _ => .pure _

theorem historyFor_upright (name : String) : Keeps s (Upright s view) (historyFor name) :=
  (announcing_upright K).ensureLedger.bind fun _ =>
    (announcing_upright K).ledgerTable.bind fun _ => (toList_upright K _).bind fun _ => .pure _

/-! Many rows at once. -/

theorem batch_upright {f : Entity → Act σ Written} {es : List Entity}
    (hf : ∀ e ∈ es, Keeps s (Upright s view) (f e)) (inTransaction : Bool) :
    Keeps s (Upright s view) (batch f es inTransaction) :=
  .ite ((transacting_upright K).keepingInTransaction (.eachOf hf)) (.eachOf hf)

theorem deleteAll_upright {t : RecordType} (ht : t.Known) :
    Keeps s (Upright s view) (deleteAll t) :=
  (mapping_upright ht).bind fun m =>
    (transacting_upright K).runInTransaction (tells_emptyTable (announcing_upright K) m)

theorem run_changeCatalog (name : String) (c : Connection σ) :
    ∃ r w, (changeCatalog name).run s c = (r, { c with world := w }) ∧
      view w = if r = .ok true then { view c.world with current := name } else view c.world := by
  rw [changeCatalog, run_bind_ok _ run_dialect]
  cases hsql : s.config.dialect.changeCatalog? name with
  | none => exact ⟨.ok false, c.world, rfl, rfl⟩
  | some sql =>
    rw [issueIfAny, issue, bind_assoc]
    rcases hr : s.driver.execute (s.config.dialect.render sql) [] c.world with ⟨e | r, w⟩
    · exact ⟨_, w, run_bind_error _ (run_exec_error hr), K.failed hr⟩
    · exact ⟨_, w, run_bind_ok _ (run_exec_ok hr), K.changesCatalog hsql hr⟩

end

end Act

/-- What can be done with a connection, apart from statements of the caller's. -/
inductive Operation
  | insert (e : Entity) (mode : InsertMode)
  | insertAll (es : List Entity) (mode : InsertMode) (inTransaction : Bool)
  | update (e : Entity)
  | updateAll (es : List Entity) (inTransaction : Bool)
  | delete (e : Entity)
  | deleteByKey (t : RecordType) (key : Value)
  | deleteWhere (q : TableQuery)
  | deleteAll (t : RecordType)
  | find (t : RecordType) (key : Value)
  | list (q : TableQuery)
  | count (q : TableQuery)
  | iterate (q : TableQuery)
  | next (rows : Act.Records)
  | drop (rows : Act.Records)
  | useFlags (t : RecordType) (flags : Flags)
  | createTable (m : Mapping)
  | dropTable (m : Mapping)
  | createIndex (name : Option String) (table : String) (columns : List String) (unique : Bool)
  | createIndexOn (t : RecordType) (field : String) (unique : Bool)
  | createDatabase (name : String)
  | changeCatalog (name : String)
  | initLedger
  | history
  | historyFor (table : String)
  | begin
  | save
  /-- Of a savepoint with a name as they are given. -/
  | release (number level : Nat)
  | rollbackTo (name : String)
  | rollback
  | commit
  /-- The end of a transaction around several operations, one of which failed. -/
  | abandon

namespace Operation

variable {σ : Type} {s : Setup σ} {view : σ → Databases} {c : Connection σ}

/-- Whatever an operation answers, the next one goes on. -/
def act : Operation → Act σ Unit
  | insert e mode => Act.quietly (Act.insert e mode)
  | insertAll es mode inTransaction => Act.quietly (Act.insertAll es mode inTransaction)
  | update e => Act.quietly (Act.modify e)
  | updateAll es inTransaction => Act.quietly (Act.modifyAll es inTransaction)
  | delete e => Act.quietly (Act.delete e)
  | deleteByKey t key => Act.quietly (Act.deleteByKey t key)
  | deleteWhere q => Act.quietly (Act.deleteQuery q)
  | deleteAll t => Act.quietly (Act.deleteAll t)
  | find t key => Act.quietly (Act.find t key)
  | list q => Act.quietly (Act.toList q)
  | count q => Act.quietly (Act.count q)
  | iterate q => Act.quietly (Act.iterate q)
  | next rows => Act.quietly (Act.nextOf rows)
  | drop rows => Act.quietly (Act.dropRecords rows)
  | useFlags t flags => Act.quietly (Act.mappingWithFlags t flags)
  | createTable m => Act.quietly (Act.createTable m)
  | dropTable m => Act.quietly (Act.dropTable m)
  | createIndex name table columns unique =>
    Act.quietly (Act.createIndex name table columns unique)
  | createIndexOn t field unique => Act.quietly (Act.createIndexOn t field unique)
  | createDatabase name => Act.quietly (Act.createDatabase name)
  | changeCatalog name => Act.quietly (Act.changeCatalog name)
  | initLedger => Act.quietly Act.initLedger
  | history => Act.quietly Act.history
  | historyFor table => Act.quietly (Act.historyFor table)
  | begin => Act.quietly Act.begin
  | save => Act.quietly Act.save
  | release number level => Act.quietly (Act.release (Savepoint.name number level))
  | rollbackTo name => Act.quietly (Act.rollbackTo name)
  | rollback => Act.quietly Act.rollback
  | commit => Act.quietly Act.commit
  | abandon => Act.quietRollback

/-- Every record type with the name of the ledger's is the ledger's. -/
def Known : Operation → Prop
  | insert e _ | update e | delete e => e.type.Known
  | insertAll es _ _ | updateAll es _ => ∀ e ∈ es, e.type.Known
  | deleteByKey t _ | deleteAll t | find t _ | useFlags t _ | createIndexOn t _ _ => t.Known
  | _ => True

/-- Where the connection takes the ledger to be there, a change of the database leads to one that
has it. -/
def Fair (s : Setup σ) (view : σ → Databases) (c : Connection σ) : Operation → Prop
  | changeCatalog name =>
    ((Act.changeCatalog name).run s c).1 = .ok true → c.ledgerReady = true →
      (view c.world).tables name Ledger.tableName
  | _ => True

/-- The connection after an operation. -/
def after (s : Setup σ) (c : Connection σ) (op : Operation) : Connection σ := (op.act.run s c).2

/-- Everything but a change of the database keeps a connection upright. -/
theorem keeps_upright (K : s.KeepsTables view) {op : Operation} (hop : op.Known)
    (hne : ∀ name, op ≠ changeCatalog name) : Act.Keeps s (Upright s view) op.act := by
  have A := Act.announcing_upright K
  have T := Act.transacting_upright K
  cases op with
  | insert e mode => exact .quietly (A.insert mode hop)
  | insertAll es mode inTransaction =>
    exact .quietly (Act.batch_upright K (fun e he => A.insert mode (hop e he)) _)
  | update e => exact .quietly (A.modify hop)
  | updateAll es inTransaction =>
    exact .quietly (Act.batch_upright K (fun e he => A.modify (hop e he)) _)
  | delete e => exact .quietly (A.delete hop)
  | deleteByKey t key => exact .quietly (A.deleteByKey key hop)
  | deleteWhere q => exact .quietly (A.deleteQuery q)
  | deleteAll t => exact .quietly (Act.deleteAll_upright K hop)
  | find t key => exact .quietly (Act.find_upright K hop key)
  | list q => exact .quietly (Act.toList_upright K q)
  | count q => exact .quietly (Act.count_upright K q)
  | iterate q => exact .quietly (Act.iterate_upright K q)
  | next rows => exact .quietly (Act.nextOf_upright K rows)
  | drop rows => exact .quietly (Act.dropRecords_upright K rows)
  | useFlags t flags => exact .quietly (Act.mappingWithFlags_upright hop flags)
  | createTable m => exact .quietly (Act.createTable_upright K m)
  | dropTable m => exact .quietly (Act.dropTable_upright K m)
  | createIndex name table columns unique =>
    exact .quietly (Act.createIndex_upright K name table columns unique)
  | createIndexOn t field unique =>
    exact .quietly (Act.createIndexOn_upright K hop field unique)
  | createDatabase name => exact .quietly (Act.createDatabase_upright K name)
  | changeCatalog name => exact absurd rfl (hne name)
  | initLedger => exact .quietly (Act.initLedger_upright K)
  | history => exact .quietly (Act.history_upright K)
  | historyFor table => exact .quietly (Act.historyFor_upright K table)
  | begin => exact .quietly T.begin
  | save => exact .quietly T.save
  | release number level => exact .quietly (T.release number level)
  | rollbackTo name => exact .quietly (Act.rollbackTo_upright K name)
  | rollback => exact .quietly (Act.rollback_upright K)
  | commit => exact .quietly T.commit
  | abandon => exact T.quietRollback

theorem fair_of_ne {op : Operation} (h : ∀ name, op ≠ changeCatalog name) : op.Fair s view c := by
  cases op with
  | changeCatalog name => exact absurd rfl (h name)
  | _ => trivial

/-- After a change of the database the note is right exactly if the change was fair. -/
theorem after_changeCatalog (K : s.KeepsTables view) (hc : Upright s view c) (name : String) :
    Remembers s view ((changeCatalog name).after s c) ∧
      (Honest view ((changeCatalog name).after s c) ↔ (changeCatalog name).Fair s view c) := by
  obtain ⟨r, w, hrun, hview⟩ := Act.run_changeCatalog K name c
  have hafter : (changeCatalog name).after s c = { c with world := w } := by
    change ((Act.changeCatalog name).run s c).2 = _
    rw [hrun]
  rw [hafter, Fair, hrun]
  refine ⟨hc.remembers.of_eq rfl rfl rfl, ?_⟩
  by_cases hr : r = .ok true
  · rw [if_pos hr] at hview
    rw [Honest, hview]
    exact ⟨fun h _ => h, fun h => h hr⟩
  · rw [if_neg hr] at hview
    rw [Honest, hview]
    exact ⟨fun _ h => absurd h hr, fun _ => hc.honest⟩

theorem after_upright (K : s.KeepsTables view) (hc : Upright s view c) {op : Operation}
    (hop : op.Known) :
    Remembers s view (op.after s c) ∧ (Honest view (op.after s c) ↔ op.Fair s view c) := by
  by_cases hchange : ∃ name, op = changeCatalog name
  · obtain ⟨name, rfl⟩ := hchange
    exact after_changeCatalog K hc name
  · have hne (name : String) : op ≠ changeCatalog name := fun h => hchange ⟨name, h⟩
    have hupright := keeps_upright K hop hne c hc
    exact ⟨hupright.remembers, fun _ => fair_of_ne hne, fun _ => hupright.honest⟩

end Operation

namespace Connection

variable {σ : Type} {s : Setup σ} {view : σ → Databases} {c : Connection σ}

/-- The ledger is there if the connection takes it to be, and so it is whenever something is about
to be entered. -/
structure FindsLedger (s : Setup σ) (view : σ → Databases) (c : Connection σ) : Prop where
  honest : Honest view c
  ensured {c' : Connection σ} : Act.ensureLedger.run s c = (.ok (), c') →
    (view c'.world).Has Ledger.tableName

/-- It does after every operation of a run. -/
def FindsLedgerThroughout (s : Setup σ) (view : σ → Databases) :
    Connection σ → List Operation → Prop
  | _, [] => True
  | c, op :: ops =>
    FindsLedger s view (op.after s c) ∧ FindsLedgerThroughout s view (op.after s c) ops

/-- Every change of the database in a run is fair. -/
def FairThroughout (s : Setup σ) (view : σ → Databases) : Connection σ → List Operation → Prop
  | _, [] => True
  | c, op :: ops => op.Fair s view c ∧ FairThroughout s view (op.after s c) ops

theorem FindsLedger.of_upright (K : s.KeepsTables view) (hc : Upright s view c) :
    FindsLedger s view c where
  honest := hc.honest
  ensured {c'} h := by
    have hc' := (Act.announcing_upright K).ensureLedger.of_run hc h
    rw [Act.ensureLedger, Act.run_bind_ok _ Act.run_state] at h
    cases hready : c.ledgerReady with
    | true =>
      rw [hready] at h
      cases h
      exact hc.honest hready
    | false =>
      rw [hready] at h
      exact hc'.honest (Act.ledgerReady_of_initLedger h)

/-- From a connection that is right about the ledger, it is right after every operation of a run
exactly if the run takes the note to no database without the ledger. -/
theorem findsLedgerThroughout_iff (K : s.KeepsTables view) (hc : Upright s view c)
    (ops : List Operation) (hops : ∀ op ∈ ops, op.Known) :
    FindsLedgerThroughout s view c ops ↔ FairThroughout s view c ops := by
  induction ops generalizing c with
  | nil => exact Iff.rfl
  | cons op ops ih =>
    obtain ⟨hop, hops⟩ := List.forall_mem_cons.1 hops
    obtain ⟨hremembers, hhonest⟩ := op.after_upright K hc hop
    rw [FindsLedgerThroughout, FairThroughout]
    by_cases hfair : op.Fair s view c
    · have hafter : Upright s view (op.after s c) := ⟨hremembers, hhonest.2 hfair⟩
      rw [ih hafter hops]
      exact and_congr_left fun _ => iff_of_true (.of_upright K hafter) hfair
    · exact iff_of_false (fun h => hfair (hhonest.1 h.1.honest)) fun h => hfair h.1

end Connection

namespace Samples

/-- The table of changes is made and undone, and made again. -/
def undoneLedger : List Operation := [.begin, .initLedger, .rollback, .initLedger]

def salesConnection : Connection Catalogs := { world := { current := "Sales" } }

/-- The note outlives a change to a database without the ledger, though not a rollback. -/
theorem undoneLedger_findsLedger :
    Connection.FindsLedgerThroughout Catalogs.setup Catalogs.view salesConnection undoneLedger ∧
      ¬Connection.FindsLedgerThroughout Catalogs.setup Catalogs.view salesConnection
        (undoneLedger ++ [.changeCatalog "Archive"]) := by
  have hupright : Upright Catalogs.setup Catalogs.view salesConnection :=
    Forgetful.upright ⟨.opened _, rfl⟩
  constructor
  · rw [Connection.findsLedgerThroughout_iff Catalogs.keepsTables hupright undoneLedger
      (by simp [undoneLedger, Operation.Known])]
    exact ⟨trivial, trivial, trivial, trivial, trivial⟩
  · rw [Connection.findsLedgerThroughout_iff Catalogs.keepsTables hupright _
      (by simp [undoneLedger, Operation.Known])]
    rintro ⟨-, -, -, -, hfair, -⟩
    revert hfair
    unfold Operation.Fair
    decide +kernel

end Samples

end RowLedger
