import RowLedger.Proofs.Connection.KeepingLevels
import RowLedger.Proofs.Connection.Tracked

/-!
The databases behind a connection by the names of their tables. A connection that takes the ledger
to be there is right, as long as it stays in the database where it found the ledger.
-/

namespace RowLedger

/-- The database that a connection is in, and the tables of each. -/
structure Databases where
  current : String
  tables : String → String → Prop

namespace Databases

def Has (d : Databases) (table : String) : Prop := d.tables d.current table

def withTable (d : Databases) (table : String) : Databases :=
  { d with tables := fun name t => d.tables name t ∨ name = d.current ∧ t = table }

def withoutTable (d : Databases) (table : String) : Databases :=
  { d with tables := fun name t => d.tables name t ∧ ¬(name = d.current ∧ t = table) }

theorem has_withTable (d : Databases) (table : String) : (d.withTable table).Has table :=
  .inr ⟨rfl, rfl⟩

theorem Has.withTable {d : Databases} {t : String} (h : d.Has t) (table : String) :
    (d.withTable table).Has t := .inl h

theorem Has.withoutTable {d : Databases} {t table : String} (h : d.Has t) (hne : t ≠ table) :
    (d.withoutTable table).Has t := ⟨h, fun heq => hne heq.2⟩

end Databases

/-- The statements that open and close levels and undo nothing. -/
inductive LevelStatement (d : Dialect) : Sql → Prop
  | begin : LevelStatement d Dialect.begin
  | save (number depth : Nat) :
      LevelStatement d (d.savepoint (Savepoint.name number depth) depth)
  | release {number level depth : Nat} {sql : Sql}
      (h : d.release? (Savepoint.name number level) depth = some sql) : LevelStatement d sql
  | commit : LevelStatement d d.commit

/-- A driver that carries out what a connection states about tables. What a rollback makes of them
is left open. -/
structure Setup.KeepsTables {σ : Type} (s : Setup σ) (view : σ → Databases) : Prop where
  /-- A statement that fails changes nothing. -/
  failed {sql : String} {params : List Param} {w w' : σ} {e : StorageError} :
    s.driver.execute sql params w = (.error e, w') → view w' = view w
  rows {sql : Sql} {params : List Param} {w w' : σ} {r : ExecResult} :
    RowStatement s.config.dialect sql →
      s.driver.execute (s.config.dialect.render sql) params w = (.ok r, w') → view w' = view w
  levels {sql : Sql} {w w' : σ} {r : ExecResult} :
    LevelStatement s.config.dialect sql →
      s.driver.execute (s.config.dialect.render sql) [] w = (.ok r, w') → view w' = view w
  creates {m : Mapping} {w w' : σ} {r : ExecResult} :
    s.driver.execute (s.config.dialect.render (s.config.dialect.createTable m)) [] w =
      (.ok r, w') → view w' = (view w).withTable m.table
  addsColumn {table : String} {c : Column} {w w' : σ} {r : ExecResult} :
    s.driver.execute (s.config.dialect.render (s.config.dialect.addColumn table c)) [] w =
      (.ok r, w') → view w' = view w
  createsIndex {i : Index} {w w' : σ} {r : ExecResult} :
    s.driver.execute (s.config.dialect.render (s.config.dialect.createIndex i)) [] w =
      (.ok r, w') → view w' = view w
  drops {table : String} {w w' : σ} {r : ExecResult} :
    s.driver.execute (s.config.dialect.render (Dialect.dropTable table)) [] w = (.ok r, w') →
      view w' = (view w).withoutTable table
  createsDatabase {name : String} {sql : Sql} {w w' : σ} {r : ExecResult} :
    s.config.dialect.createDatabase? name = some sql →
      s.driver.execute (s.config.dialect.render sql) [] w = (.ok r, w') → view w' = view w
  changesCatalog {name : String} {sql : Sql} {w w' : σ} {r : ExecResult} :
    s.config.dialect.changeCatalog? name = some sql →
      s.driver.execute (s.config.dialect.render sql) [] w = (.ok r, w') →
        view w' = { view w with current := name }
  reads {sql : Sql} (params : List Param) (w : σ) :
    Reading s.config.dialect sql →
      view (s.driver.query (s.config.dialect.render sql) params w).2 = view w ∧
      view (s.driver.scalar (s.config.dialect.render sql) params w).2 = view w ∧
      view (s.driver.openCursor (s.config.dialect.render sql) params w).2 = view w
  cursors (cursor : Cursor) (w : σ) :
    view (s.driver.nextRow cursor w).2 = view w ∧ view (s.driver.closeCursor cursor w).2 = view w
  /-- Only a table that is there has columns. -/
  lists {table : String} {w w' : σ} {set : ResultSet} :
    s.driver.query (s.config.dialect.render (s.config.dialect.tableInfo table)) [] w =
      (.ok set, w') → (Act.columnInfos set).isEmpty = false → (view w).Has table

variable {σ α : Type} {s : Setup σ} {view : σ → Databases} {c c' : Connection σ}

/-- What a connection remembers is what it has made, and its subscribers leave the tables alone. -/
structure Remembers (s : Setup σ) (view : σ → Databases) (c : Connection σ) : Prop where
  ledger : ∀ p ∈ c.registry.entries, p.1.name = Ledger.recordType.name →
    p.2.value.table = Ledger.tableName
  commands : ∀ p ∈ c.commands.entries, ∃ m mode,
    p.2.value = InsertCommand.derive s.config.dialect m mode
  subscribers : ∀ b ∈ c.subscribers, ∀ change w, view (b.onChange change w) = view w

/-- The ledger is there if the connection takes it to be there. -/
def Honest (view : σ → Databases) (c : Connection σ) : Prop :=
  c.ledgerReady = true → (view c.world).Has Ledger.tableName

structure Upright (s : Setup σ) (view : σ → Databases) (c : Connection σ) : Prop where
  remembers : Remembers s view c
  honest : Honest view c

/-- The same, of a connection that does not take the ledger to be there. -/
structure Forgetful (s : Setup σ) (view : σ → Databases) (c : Connection σ) : Prop where
  remembers : Remembers s view c
  forgotten : c.ledgerReady = false

theorem Remembers.of_eq (h : Remembers s view c) (hregistry : c'.registry = c.registry)
    (hcommands : c'.commands = c.commands) (hsubscribers : c'.subscribers = c.subscribers) :
    Remembers s view c' where
  ledger := by
    rw [hregistry]
    exact h.ledger
  commands := by
    rw [hcommands]
    exact h.commands
  subscribers := by
    rw [hsubscribers]
    exact h.subscribers

theorem Forgetful.upright (h : Forgetful s view c) : Upright s view c :=
  ⟨h.remembers, fun hready => by rw [h.forgotten] at hready; cases hready⟩

theorem Remembers.opened (w : σ) : Remembers s view { world := w } where
  ledger := nofun
  commands := nofun
  subscribers := nofun

theorem Remembers.view_foldl (h : Remembers s view c) (change : Change) (w : σ) :
    view (c.subscribers.foldl (fun w b => b.onChange change w) w) = view w :=
  foldl_unchanged (fun b hb w => h.subscribers b hb change w) w

theorem Mapping.table_ofRecord {t : RecordType} {flags : Flags} {m : Mapping}
    (h : Mapping.ofRecord t flags = .ok m) : m.table = t.table := by
  obtain ⟨columns, sync, -, rfl⟩ := Mapping.ofFields_ok h
  rfl

/-- A type with the name of the ledger's is the ledger's. -/
def RecordType.Known (t : RecordType) : Prop :=
  t.name = Ledger.recordType.name → t = Ledger.recordType

theorem Remembers.put (h : Remembers s view c) {t : RecordType} {flags : Flags} {m : Mapping}
    (ht : t.Known) (hm : Mapping.ofRecord t flags = .ok m) :
    Remembers s view { c with registry := (c.registry.put t m).2 } where
  ledger p hp hname := by
    rcases Cache.mem_entries_put hp with hp | ⟨rfl, rfl⟩
    · exact h.ledger p hp hname
    · rw [Mapping.table_ofRecord hm, ht hname]
      rfl
  commands := h.commands
  subscribers := h.subscribers

theorem Upright.atWorld (h : Upright s view c) {w : σ}
    (hw : (view c.world).Has Ledger.tableName → (view w).Has Ledger.tableName) :
    Upright s view { c with world := w } :=
  ⟨h.remembers.of_eq rfl rfl rfl, fun hready => hw (h.honest hready)⟩

namespace Act

/-- A statement that leaves a table where it is, if it succeeds. -/
def Spares (s : Setup σ) (view : σ → Databases) (table : String) (sql : Sql)
    (params : List Param) : Prop :=
  ∀ w r w', s.driver.execute (s.config.dialect.render sql) params w = (.ok r, w') →
    (view w).Has table → (view w').Has table

variable {table : String} {sql : Sql} {params : List Param}

theorem Spares.of_same (h : ∀ w r w', s.driver.execute (s.config.dialect.render sql) params w =
    (.ok r, w') → view w' = view w) : Spares s view table sql params := by
  intro w r w' hr hhas
  rwa [h w r w' hr]

theorem call_upright {f : Driver σ → σ → Reply σ α}
    (h : ∀ w, view (f s.driver w).2 = view w) : Keeps s (Upright s view) (call f) := fun c hc =>
  hc.atWorld fun hhas => by rwa [h]

section

variable (K : s.KeepsTables view)
include K

theorem Spares.kept (h : Spares s view table sql params) :
    Keeps s (fun c => (view c.world).Has table) (exec sql params) := by
  intro c hc
  rw [run_exec]
  rcases hr : s.driver.execute (s.config.dialect.render sql) params c.world with ⟨e | r, w'⟩
  · change (view w').Has table
    rwa [K.failed hr]
  · exact h _ _ _ hr hc

theorem Spares.upright (h : Spares s view Ledger.tableName sql params) :
    Keeps s (Upright s view) (exec sql params) := fun c hc =>
  hc.atWorld (h.kept K c)

theorem spares_rows (h : RowStatement s.config.dialect sql) : Spares s view table sql params :=
  .of_same fun _ _ _ => K.rows h

theorem spares_levels (h : LevelStatement s.config.dialect sql) : Spares s view table sql [] :=
  .of_same fun _ _ _ => K.levels h

theorem spares_table (h : TableStatement s.config.dialect sql) : Spares s view table sql [] := by
  cases h with
  | create m =>
    intro w r w' hr hhas
    rw [K.creates hr]
    exact hhas.withTable m.table
  | addColumn table c => exact .of_same fun _ _ _ => K.addsColumn
  | createIndex i => exact .of_same fun _ _ _ => K.createsIndex

theorem query_upright (params : List Param) (h : Reading s.config.dialect sql) :
    Keeps s (Upright s view) (query sql params) :=
  .dialect_bind (call_upright fun w => (K.reads params w h).1)

theorem scalar_upright (params : List Param) (h : Reading s.config.dialect sql) :
    Keeps s (Upright s view) (scalar sql params) :=
  .dialect_bind (call_upright fun w => (K.reads params w h).2.1)

end

/-! What the connection remembers. -/

theorem mapping_upright {t : RecordType} (ht : t.Known) :
    Keeps s (Upright s view) (mapping t) := by
  intro c hc
  rw [run_mapping_eq, Registry.mapping]
  cases hr : c.registry.find? t with
  | some sh =>
    rw [Cache.serve_of_find? hr]
    exact ⟨hc.remembers.of_eq rfl rfl rfl, hc.honest⟩
  | none =>
    rw [Cache.serve_of_none hr]
    cases hm : Mapping.ofRecord t .none with
    | error e => exact hc
    | ok m => exact ⟨hc.remembers.put ht hm, hc.honest⟩

theorem mappingWithFlags_upright {t : RecordType} (ht : t.Known) (flags : Flags) :
    Keeps s (Upright s view) (mappingWithFlags t flags) := by
  intro c hc
  rw [mappingWithFlags, run_bind_ok _ run_state, run_bind, run_ofExcept, Registry.withFlags]
  cases (c.registry.find? t).filter fun sh => sh.value.flags = flags with
  | some sh => exact ⟨hc.remembers.of_eq rfl rfl rfl, hc.honest⟩
  | none =>
    cases hm : Mapping.ofRecord t flags with
    | error e => exact hc
    | ok m => exact ⟨hc.remembers.put ht hm, hc.honest⟩

/-- The mapping in use for the ledger has the ledger's table. -/
theorem table_of_mapping {m : Mapping} (hc : Remembers s view c)
    (h : (mapping Ledger.recordType).run s c = (.ok m, c')) : m.table = Ledger.tableName := by
  rw [run_mapping_eq, Registry.mapping] at h
  cases hr : c.registry.find? Ledger.recordType with
  | some sh =>
    rw [Cache.serve_of_find? hr] at h
    cases h
    exact hc.ledger _ (Cache.mem_of_find? hr) rfl
  | none =>
    rw [Cache.serve_of_none hr, Ledger.ofRecord_recordType] at h
    cases h
    rfl

theorem insertCommand_upright (t : RecordType) (m : Mapping) (mode : InsertMode) :
    Keeps s (Upright s view) (insertCommand t m mode) := by
  intro c hc
  rw [run_insertCommand_keep]
  refine ⟨⟨hc.remembers.ledger, fun p hp => ?_, hc.remembers.subscribers⟩, hc.honest⟩
  rcases Cache.mem_entries_keep hp with hp | ⟨-, hp⟩
  · exact hc.remembers.commands p hp
  · exact ⟨m, mode, hp⟩

/-- Every command for inserts was derived. -/
theorem insertCommand_derived {t : RecordType} {m : Mapping} {mode : InsertMode}
    {i : InsertCommand} (hc : Upright s view c)
    (h : (insertCommand t m mode).run s c = (.ok i, c')) :
    ∃ m mode, i = InsertCommand.derive s.config.dialect m mode := by
  have hc' := (insertCommand_upright t m mode).of_run hc h
  rw [run_insertCommand_keep] at h
  cases h
  exact hc'.remembers.commands _ (Cache.mem_of_find? Cache.find?_keep_self)

theorem store_upright (K : s.KeepsTables view) (m : Mapping) (e : Entity) (g : Guid)
    (mode : InsertMode) : Keeps s (Upright s view) (store m e g mode) := by
  refine (insertCommand_upright e.type m mode).bind_of fun c i c' hc hi => ?_
  obtain ⟨m', mode', rfl⟩ := insertCommand_derived hc hi
  exact .ofExcept_bind fun params _ => (spares_rows K (.insert m' mode')).upright K

section

variable (K : s.KeepsTables view)
include K

theorem issue_spares {sql : Sql} {table : String} (h : TableStatement s.config.dialect sql) :
    Keeps s (fun c => (view c.world).Has table) (issue sql) :=
  ((spares_table K h).kept K).bind fun _ => .pure _

/-- A listing that is not empty is one of a table. -/
theorem has_of_tableInfo {table : String} {existing : List ColumnInfo}
    (h : (tableInfo table).run s c = (.ok existing, c')) (hsome : existing.isEmpty = false) :
    (view c'.world).Has table := by
  rw [tableInfo, run_bind_ok _ run_dialect, run_bind, run_query] at h
  have hview := (K.reads [] c.world (.columns table)).1
  rcases hr : s.driver.query (s.config.dialect.render (s.config.dialect.tableInfo table)) []
    c.world with ⟨e | set, w⟩
  · rw [hr] at h
    cases h
  · rw [hr] at h hview
    cases h
    change (view w).Has table
    rw [hview]
    exact K.lists hr hsome

theorem has_of_issue {m : Mapping}
    (h : (issue (s.config.dialect.createTable m)).run s c = (.ok (), c')) :
    (view c'.world).Has m.table := by
  obtain ⟨r, c₁, hr, h⟩ := of_run_bind_ok h
  obtain ⟨w, hw, rfl⟩ := of_run_exec_ok hr
  cases h
  change (view w).Has m.table
  rw [K.creates hw]
  exact Databases.has_withTable _ _

/-- A table is there after it was made or migrated. -/
theorem has_of_createTable {m : Mapping} {outcome : TableOutcome}
    (h : (createTable m).run s c = (.ok outcome, c')) : (view c'.world).Has m.table := by
  have hissues (sql : Sql) (hsql : TableStatement s.config.dialect sql) :
      Keeps s (fun c => (view c.world).Has m.table) (issue sql) := issue_spares K hsql
  rw [createTable, run_bind_ok _ run_dialect] at h
  obtain ⟨existing, c₁, hinfo, h⟩ := of_run_bind_ok h
  cases hempty : existing.isEmpty with
  | true =>
    rw [hempty, if_pos rfl] at h
    obtain ⟨⟨⟩, c₂, hmade, h⟩ := of_run_bind_ok h
    exact (Keeps.createIndexes hissues m .created).of_run (has_of_issue K hmade) h
  | false =>
    rw [hempty, if_neg Bool.false_ne_true] at h
    exact ((Keeps.forM fun c _ => Keeps.addColumn hissues m c).bind fun _ =>
      Keeps.createIndexes hissues m .migrated).of_run (has_of_tableInfo K hinfo hempty) h

end

end Act

end RowLedger
