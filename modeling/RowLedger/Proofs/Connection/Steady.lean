import RowLedger.Proofs.Connection.Tracked

/-! Actions on a connection that tracks tables, one lemma for each statement that they issue. -/

namespace RowLedger

variable {σ : Type}

/-- The connection remembers what belongs to the tracked tables, and they are there. -/
structure Steady (s : Setup σ) (view : σ → Contents) (ts : List Tracked) (c : Connection σ) :
    Prop where
  uses : ∀ a ∈ Tracked.known ts, c.registry.Uses a.1 a.2
  commands : ∀ a ∈ Tracked.known ts, ∀ mode i,
    c.commands.find? ⟨a.1, a.2.flags, mode, s.config.dialect⟩ = some i →
      i.value = InsertCommand.derive s.config.dialect a.2 mode
  subscribers : ∀ b ∈ c.subscribers, ∀ change w, view (b.onChange change w) = view w
  tables : ∀ t ∈ ts, (view c.world).tables.Has t.mapping.table
  /-- The ledger is absent or has all its columns. -/
  ledger : (view c.world).tables.Has Ledger.tableName →
    (view c.world).tables.columns Ledger.tableName = Ledger.mapping.columns.map Column.name
  ready : c.ledgerReady = true → (view c.world).tables.Has Ledger.tableName

/-- What an action leaves, apart from the rows that it changes. -/
structure Leaves (s : Setup σ) (view : σ → Contents) (ts : List Tracked) (c c' : Connection σ)
    (rows : String → List Record) : Prop where
  steady : Steady s view ts c'
  rows : (view c'.world).tables.rows = rows
  saved : (view c'.world).saved = (view c.world).saved
  depth : c'.depth = c.depth
  drawn : c'.guidsDrawn = c.guidsDrawn
  ledger : (view c.world).tables.Has Ledger.tableName → (view c'.world).tables.Has Ledger.tableName
  /-- Only the ledger may have been made. -/
  columns : ∀ t ≠ Ledger.tableName,
    (view c'.world).tables.columns t = (view c.world).tables.columns t

section

variable {s : Setup σ} {view : σ → Contents} {ts : List Tracked} {c c₁ c₂ : Connection σ}

/-- A connection that has just been opened on tables without flags is steady. -/
theorem Steady.opened {w : σ} (hmapped : ∀ t ∈ ts, Mapping.ofRecord t.type .none = .ok t.mapping)
    (htables : ∀ t ∈ ts, (view w).tables.Has t.mapping.table)
    (hledger : (view w).tables.Has Ledger.tableName →
      (view w).tables.columns Ledger.tableName = Ledger.mapping.columns.map Column.name) :
    Steady s view ts { world := w } where
  uses a ha := by
    rcases List.mem_cons.1 ha with rfl | ha
    · exact Ledger.ofRecord_recordType
    · obtain ⟨t, ht, rfl⟩ := List.mem_map.1 ha
      exact hmapped t ht
  commands := by
    intro a _ mode i h
    cases h
  subscribers b hb := by cases hb
  tables := htables
  ledger := hledger
  ready h := by cases h

theorem Leaves.refl (h : Steady s view ts c) : Leaves s view ts c c (view c.world).tables.rows :=
  ⟨h, rfl, rfl, rfl, rfl, id, fun _ _ => rfl⟩

theorem Leaves.trans {rows₁ rows₂ : String → List Record} (h₁ : Leaves s view ts c c₁ rows₁)
    (h₂ : Leaves s view ts c₁ c₂ rows₂) : Leaves s view ts c c₂ rows₂ where
  steady := h₂.steady
  rows := h₂.rows
  saved := h₂.saved.trans h₁.saved
  depth := h₂.depth.trans h₁.depth
  drawn := h₂.drawn.trans h₁.drawn
  ledger h := h₂.ledger (h₁.ledger h)
  columns t ht := (h₂.columns t ht).trans (h₁.columns t ht)

theorem Leaves.has {rows : String → List Record} (h : Leaves s view ts c c₁ rows) {t : String}
    (ht : t ≠ Ledger.tableName) (hhas : (view c.world).tables.Has t) :
    (view c₁.world).tables.Has t := by
  rw [Tables.Has, h.columns t ht]
  exact hhas

/-- A second action changes no rows. -/
theorem Leaves.still {rows : String → List Record} (h₁ : Leaves s view ts c c₁ rows)
    (h₂ : Leaves s view ts c₁ c₂ (view c₁.world).tables.rows) : Leaves s view ts c c₂ rows := by
  rw [h₁.rows] at h₂
  exact h₁.trans h₂

/-- A connection stays steady if it remembers the same and the tables are where they were. -/
theorem Steady.of_eq {c' : Connection σ} (h : Steady s view ts c)
    (hregistry : c'.registry = c.registry) (hcommands : c'.commands = c.commands)
    (hsubscribers : c'.subscribers = c.subscribers)
    (hcolumns : (view c'.world).tables.columns = (view c.world).tables.columns)
    (hready : c'.ledgerReady = true → c.ledgerReady = true) : Steady s view ts c' where
  uses := by rw [hregistry]; exact h.uses
  commands := by rw [hcommands]; exact h.commands
  subscribers := by rw [hsubscribers]; exact h.subscribers
  tables t ht := by
    have := h.tables t ht
    rwa [Tables.Has, ← hcolumns] at this
  ledger hhas := by
    rw [Tables.Has, hcolumns] at hhas
    rw [hcolumns]
    exact h.ledger hhas
  ready hr := by
    have := h.ready (hready hr)
    rwa [Tables.Has, ← hcolumns] at this

theorem Leaves.atWorld (h : Steady s view ts c) {w : σ}
    (hcolumns : (view w).tables.columns = (view c.world).tables.columns)
    (hsaved : (view w).saved = (view c.world).saved) :
    Leaves s view ts c { c with world := w } (view w).tables.rows where
  steady := h.of_eq rfl rfl rfl hcolumns id
  rows := rfl
  saved := hsaved
  depth := rfl
  drawn := rfl
  ledger hhas := by rwa [Tables.Has, ← hcolumns] at hhas
  columns t _ := by rw [hcolumns]

theorem Leaves.withRows (h : Steady s view ts c) {w : σ} {t : String} {rs : List Record}
    (hw : view w = (view c.world).withRows t rs) :
    Leaves s view ts c { c with world := w } (Function.update (view c.world).tables.rows t rs) := by
  have := Leaves.atWorld h (w := w) (by rw [hw]; rfl) (by rw [hw]; rfl)
  rw [hw] at this
  exact this

/-- The ledger is made. -/
theorem Leaves.withLedger (h : Steady s view ts c) {w : σ}
    (hw : view w = { view c.world with
      tables := (view c.world).tables.withTable Ledger.tableName
        (Ledger.mapping.columns.map Column.name) }) :
    Leaves s view ts c { c with world := w } (view c.world).tables.rows ∧
      (view w).tables.Has Ledger.tableName := by
  have hcolumns : (view w).tables.columns Ledger.tableName =
      Ledger.mapping.columns.map Column.name := by
    rw [hw]
    exact Tables.columns_withTable ..
  have hhas : (view w).tables.Has Ledger.tableName := by
    rw [Tables.Has, hcolumns, Ledger.names_mapping]
    exact List.cons_ne_nil _ _
  refine ⟨⟨⟨h.uses, h.commands, h.subscribers, fun t ht => ?_, fun _ => hcolumns,
    fun _ => hhas⟩, ?_, ?_, rfl, rfl, fun _ => hhas, fun t ht => ?_⟩, hhas⟩
  · have := h.tables t ht
    rwa [Tables.Has, hw, Tables.columns_withTable_of_ne _ _ t.table_ne]
  · rw [hw]
    rfl
  · rw [hw]
  · rw [hw]
    exact Tables.columns_withTable_of_ne _ _ ht _

theorem Leaves.sameView (h : Steady s view ts c) {w : σ} (hw : view w = view c.world) :
    Leaves s view ts c { c with world := w } (view c.world).tables.rows := by
  have := Leaves.atWorld h (w := w) (by rw [hw]) (by rw [hw])
  rwa [hw] at this

end

namespace Act

variable {s : Setup σ} {view : σ → Contents} {ts : List Tracked} {c : Connection σ}
  {M : Meaning} {R : Refusals}

theorem run_mapping (hts : Tracked.Apart ts) (h : Steady s view ts c) {t : RecordType} {m : Mapping}
    (ht : (t, m) ∈ Tracked.known ts) :
    ∃ c', (mapping t).run s c = (.ok m, c') ∧
      Leaves s view ts c c' (view c.world).tables.rows := by
  obtain ⟨sh, r, hr, rfl, hkept⟩ := (h.uses _ ht).mapping
  refine ⟨{ c with registry := r }, ?_, ?_, rfl, rfl, rfl, rfl, id, fun _ _ => rfl⟩
  · rw [mapping, run_bind_ok _ run_state, hr]
    rfl
  · refine ⟨fun a ha => hkept _ _ (fun htype => ?_) (h.uses a ha), h.commands, h.subscribers,
      h.tables, h.ledger, h.ready⟩
    rw [hts.eq_of_name ha ht (congrArg RecordType.name htype)]

/-- The command for inserts is the one that the mapping gives, and it is remembered. -/
theorem run_insertCommand_eq (t : RecordType) (m : Mapping) (mode : InsertMode)
    (h : ∀ i, c.commands.find? ⟨t, m.flags, mode, s.config.dialect⟩ = some i →
      i.value = InsertCommand.derive s.config.dialect m mode) :
    ∃ commands, (insertCommand t m mode).run s c =
        (.ok (InsertCommand.derive s.config.dialect m mode), { c with commands }) ∧
      ∀ key i, commands.find? key = some i → c.commands.find? key = some i ∨
        key = ⟨t, m.flags, mode, s.config.dialect⟩ ∧
          i.value = InsertCommand.derive s.config.dialect m mode := by
  rw [run_insertCommand_keep]
  dsimp only
  rw [Cache.value_keep h]
  exact ⟨_, rfl, fun _ _ => Cache.of_find?_keep⟩

theorem run_insertCommand (hts : Tracked.Apart ts) (h : Steady s view ts c) {t : RecordType}
    {m : Mapping} (ht : (t, m) ∈ Tracked.known ts) (mode : InsertMode) :
    ∃ c', (insertCommand t m mode).run s c =
        (.ok (InsertCommand.derive s.config.dialect m mode), c') ∧
      Leaves s view ts c c' (view c.world).tables.rows := by
  obtain ⟨commands, hrun, hcommands⟩ := run_insertCommand_eq t m mode (h.commands _ ht mode)
  refine ⟨_, hrun, ⟨h.uses, fun a ha mode' i hi => ?_, h.subscribers, h.tables, h.ledger, h.ready⟩,
    rfl, rfl, rfl, rfl, id, fun _ _ => rfl⟩
  rcases hcommands _ _ hi with hi | ⟨hkey, hi⟩
  · exact h.commands a ha mode' i hi
  · have htype : a.1 = t := congrArg CommandKey.type hkey
    have hmode : mode' = mode := congrArg CommandKey.mode hkey
    rw [hi, hts.eq_of_name ha ht (congrArg RecordType.name htype), hmode]

theorem run_notify (h : Steady s view ts c) (m : Mapping) (action : Action) :
    ∃ c', (notify m action).run s c = (.ok (), c') ∧
      Leaves s view ts c c' (view c.world).tables.rows := by
  unfold notify
  split
  · exact ⟨c, rfl, .refl h⟩
  · refine ⟨_, rfl, .sameView h ?_⟩
    exact foldl_unchanged (fun b hb w => h.subscribers b hb ⟨m, action⟩ w) c.world

/-! Storing a record. -/

theorem param_ok_iff {m : Mapping} {i : Nat} {col : Column} {v : Value} {p : Param}
    (hcol : m.column? i = some col) :
    m.param i v = .ok p ↔ ∃ x, v.toSql = .ok x ∧ p = ⟨col.name, x⟩ := by
  rw [Mapping.param, hcol, except_bind_ok]
  exact exists_congr fun x => and_congr_right fun _ => ⟨fun h => (Except.ok.inj h).symm, (· ▸ rfl)⟩

/-- Each column has its parameter, with the value that is bound to it. -/
theorem columns_of_mapM {m : Mapping} {v : Nat → Value} {positions : List Nat}
    {params : List Param} (hpositions : ∀ i ∈ positions, (m.column? i).isSome)
    (h : positions.mapM (fun i => m.param i (v i)) = .ok params) :
    List.Forall₂ (fun col p => ∃ i x, m.column? i = some col ∧ (v i).toSql = .ok x ∧
      p = ⟨col.name, x⟩) (m.columnsAt positions) params := by
  replace h := forall₂_of_mapM h
  induction h with
  | nil => exact .nil
  | @cons i p positions params hp _ ih =>
    obtain ⟨col, hcol⟩ := Option.isSome_iff_exists.1 (hpositions i List.mem_cons_self)
    obtain ⟨x, hx, rfl⟩ := (param_ok_iff hcol).1 hp
    rw [Mapping.columnsAt, List.filterMap_cons_some hcol]
    exact .cons ⟨i, x, hcol, hx, rfl⟩ (ih fun j hj => hpositions j (List.mem_cons_of_mem i hj))

/-- The parameters of an insert go by the names of the columns. -/
theorem names_of_mapM {m : Mapping} {v : Nat → Value} {positions : List Nat} {params : List Param}
    (hpositions : ∀ i ∈ positions, (m.column? i).isSome)
    (h : positions.mapM (fun i => m.param i (v i)) = .ok params) :
    params.map Param.name = (m.columnsAt positions).map Column.name := by
  have hnames := (columns_of_mapM hpositions h).imp (S := fun col p => col.name = p.name)
    fun col p ⟨_, _, _, _, hp⟩ => by rw [hp]
  rw [← List.forall₂_map_right_iff, ← List.forall₂_map_left_iff, List.forall₂_eq_eq_eq] at hnames
  exact hnames.symm

/-- What an update sets are columns of the mapping. -/
theorem isSome_of_mem_assigned {m : Mapping} {i j : Nat} (hi : (m.column? i).isSome)
    (hj : j ∈ assigned m i) : (m.column? j).isSome := by
  rw [assigned] at hj
  split at hj
  · rwa [List.mem_singleton.1 hj]
  · exact Mapping.isSome_of_mem_positionsWhere hj

/-- Where the parameters can be made, the record is stored by one statement. -/
theorem run_store_bound {e : Entity} {m : Mapping} {g : Guid} {mode : InsertMode}
    {i : InsertCommand} {c₁ : Connection σ} {params : List Param}
    (hi : (insertCommand e.type m mode).run s c = (.ok i, c₁))
    (hparams : i.columns.mapM
      (fun j => m.param j (if j = m.sync then .guid g else m.get e j)) = .ok params) :
    (store m e g mode).run s c = (exec i.sql params).run s c₁ := by
  rw [store, run_bind_ok _ hi]
  exact run_bind_ok _ (congrArg (·, c₁) hparams)

theorem run_store_unbound {e : Entity} {m : Mapping} {g : Guid} {mode : InsertMode}
    {i : InsertCommand} {c₁ : Connection σ} {err : Error}
    (hi : (insertCommand e.type m mode).run s c = (.ok i, c₁))
    (hparams : i.columns.mapM
      (fun j => m.param j (if j = m.sync then .guid g else m.get e j)) = .error err) :
    (store m e g mode).run s c = (.error err, c₁) := by
  rw [store, run_bind_ok _ hi]
  exact run_bind_error _ (congrArg (·, c₁) hparams)

theorem run_store (hts : Tracked.Apart ts) (h : Steady s view ts c) {e : Entity} {m : Mapping}
    (he : (e.type, m) ∈ Tracked.known ts) (g : Guid) (ignoring : Bool) {params : List Param}
    (hparams : m.insertColumns.mapM
      (fun i => m.param i (if i = m.sync then .guid g else m.get e i)) = .ok params) :
    ∃ c', Leaves s view ts c c' (view c.world).tables.rows ∧
      (store m e g (if ignoring then .ignore else .insert)).run s c =
        (exec ((TableCommand.insert m ignoring params).sql s.config.dialect) params).run s c' := by
  obtain ⟨c₁, h₁, k₁⟩ := run_insertCommand hts h he (if ignoring then .ignore else .insert)
  refine ⟨c₁, k₁, ?_⟩
  cases ignoring <;> exact run_store_bound h₁ hparams

/-- A row is inserted once its record is prepared and stored. -/
theorem run_insertRow {m : Mapping} {e e' : Entity} {g : Guid} {mode : InsertMode} {r : ExecResult}
    {c₁ c₂ : Connection σ} (hp : (prepare m e).run s c = (.ok (e', g), c₁))
    (hst : (store m e' g mode).run s c₁ = (.ok r, c₂)) :
    (insertRow m e mode).run s c =
      if r.rowsAffected = 0 then (.ok (e', .ok (g, 0)), c₂)
      else match m.withGeneratedKey e' r.lastId with
        | .error err => (.ok (e', .error err), c₂)
        | .ok e => (.ok (e, .ok (g, r.rowsAffected)), c₂) := by
  rw [insertRow, run_bind_attempt _ hp, run_bind_attempt _ hst, run_ite]
  split
  · rfl
  · cases m.withGeneratedKey e' r.lastId <;> rfl

theorem run_insertRow_unprepared {m : Mapping} {e : Entity} {mode : InsertMode} {err : Error}
    {c₁ : Connection σ} (hp : (prepare m e).run s c = (.error err, c₁)) :
    (insertRow m e mode).run s c = (.ok (e, .error err), c₁) := by
  rw [insertRow, run_bind_attempt _ hp]
  rfl

theorem run_insertRow_unstored {m : Mapping} {e e' : Entity} {g : Guid} {mode : InsertMode}
    {err : Error} {c₁ c₂ : Connection σ} (hp : (prepare m e).run s c = (.ok (e', g), c₁))
    (hst : (store m e' g mode).run s c₁ = (.error err, c₂)) :
    (insertRow m e mode).run s c = (.ok (e', .error err), c₂) := by
  rw [insertRow, run_bind_attempt _ hp, run_bind_attempt _ hst]
  rfl

end Act

end RowLedger
