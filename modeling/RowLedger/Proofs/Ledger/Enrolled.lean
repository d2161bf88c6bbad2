import Mathlib.Data.Prod.Basic
import RowLedger.Proofs.Ledger.Runs

/-!
Calls on one tracked table through a database that may refuse any statement: what is left to the
statements that change the table and enter the change.
-/

namespace RowLedger

variable {σ : Type}

/-- A record type whose table is tracked, with the mapping that the connection has for it. -/
structure Enrolled (s : Setup σ) (view : σ → Contents) (t : RecordType) (m : Mapping)
    (c : Connection σ) : Prop where
  mapped : ∃ flags, Mapping.ofRecord t flags = .ok m
  type_ne : t.name ≠ Ledger.recordType.name
  table_ne : m.table ≠ Ledger.tableName
  uses : c.registry.Uses t m
  commands : ∀ mode i, c.commands.find? ⟨t, m.flags, mode, s.config.dialect⟩ = some i →
    i.value = InsertCommand.derive s.config.dialect m mode
  present : (view c.world).tables.Has m.table
  /-- What the connection remembers of the ledger. -/
  steady : Steady s view [] c

theorem Setup.Faithful.ledger {σ : Type} {s : Setup σ} {view : σ → Contents} {M : Meaning}
    {R : Refusals} {m : Mapping} (h : s.Faithful view M R [Ledger.mapping, m]) :
    s.Faithful view M R [Ledger.mapping] :=
  h.mono fun _ hn => List.mem_singleton.1 hn ▸ List.mem_cons_self

theorem Tracked.Apart.nil : Tracked.Apart [] := ⟨List.nodup_nil, List.nodup_nil⟩

/-- The value that an insert binds to a column. -/
def Mapping.bound (m : Mapping) (e : Entity) (g : Guid) (i : Nat) : Value :=
  if i = m.sync then .guid g else m.get e i

/-- A row with the bound values has the identifier of the insert. -/
theorem Mapping.WellFormed.row_sync {m : Mapping} (hm : m.WellFormed) {positions : List Nat}
    (hsync : m.sync ∈ positions) {e : Entity} {g : Guid} {params : List Param}
    (hparams : positions.mapM (fun i => m.param i (m.bound e g i)) = .ok params) {row : Record}
    (hrow : ∀ p ∈ params, row p.name = p.value) : row m.syncColumn.name = g.stored := by
  obtain ⟨p, hp, hparam⟩ := Act.mem_of_mapM hparams hsync
  rw [Mapping.bound, if_pos rfl, Mapping.param, hm.sync] at hparam
  cases hparam
  exact hrow _ hp

/-- The stored identifiers of the rows. -/
def Mapping.ids (m : Mapping) (rows : String → List Record) : List SqlValue :=
  (rows m.table).map (· m.syncColumn.name)

namespace Enrolled

variable {s : Setup σ} {view : σ → Contents} {t : RecordType} {m : Mapping} {c : Connection σ}

theorem wellFormed (h : Enrolled s view t m c) : m.WellFormed := by
  obtain ⟨flags, hm⟩ := h.mapped
  exact Mapping.wellFormed_ofRecord hm

theorem ne_recordType (h : Enrolled s view t m c) : Ledger.recordType ≠ t :=
  fun ht => h.type_ne (congrArg RecordType.name ht.symm)

theorem not_isLedger (h : Enrolled s view t m c) : Act.isLedger m = false :=
  beq_false_of_ne h.table_ne

theorem drawing (h : Enrolled s view t m c) (n : Nat) :
    Enrolled s view t m { c with guidsDrawn := n } :=
  { h with steady := h.steady.of_eq rfl rfl rfl rfl id }

theorem atWorld (h : Enrolled s view t m c) {w : σ}
    (hcolumns : (view w).tables.columns = (view c.world).tables.columns) :
    Enrolled s view t m { c with world := w } where
  mapped := h.mapped
  type_ne := h.type_ne
  table_ne := h.table_ne
  uses := h.uses
  commands := h.commands
  present := by
    rw [Tables.Has, hcolumns]
    exact h.present
  steady := h.steady.of_eq rfl rfl rfl hcolumns id

theorem run_mapping_eq (h : Enrolled s view t m c) :
    ∃ registry, (Act.mapping t).run s c = (.ok m, { c with registry }) ∧
      Enrolled s view t m { c with registry } := by
  obtain ⟨sh, r, hr, rfl, hkept⟩ := h.uses.mapping
  have hsteady : Steady s view [] { c with registry := r } := by
    refine ⟨fun a ha => ?_, h.steady.commands, h.steady.subscribers, h.steady.tables,
      h.steady.ledger, h.steady.ready⟩
    obtain rfl := List.mem_singleton.1 ha
    exact hkept _ _ (fun ht => absurd ht h.ne_recordType) (h.steady.uses _ ha)
  refine ⟨r, ?_, { h with uses := hkept _ _ (fun _ => rfl) h.uses, steady := hsteady }⟩
  rw [Act.mapping, Act.run_bind_ok _ Act.run_state, hr]
  rfl

theorem run_mapping (h : Enrolled s view t m c) :
    ∃ c', (Act.mapping t).run s c = (.ok m, c') ∧ c'.world = c.world ∧
      c'.guidsDrawn = c.guidsDrawn ∧ Enrolled s view t m c' := by
  obtain ⟨registry, hrun, h'⟩ := h.run_mapping_eq
  exact ⟨_, hrun, rfl, rfl, h'⟩

/-- The command for inserts is the one that the mapping gives. -/
theorem run_insertCommand (h : Enrolled s view t m c) (mode : InsertMode) :
    ∃ c', (Act.insertCommand t m mode).run s c =
        (.ok (InsertCommand.derive s.config.dialect m mode), c') ∧
      c'.world = c.world ∧ Steady s view [] c' := by
  obtain ⟨commands, hrun, hcommands⟩ := Act.run_insertCommand_eq t m mode (h.commands mode)
  refine ⟨{ c with commands }, hrun, rfl, h.steady.uses, fun a ha mode' i hi => ?_,
    h.steady.subscribers, h.steady.tables, h.steady.ledger, h.steady.ready⟩
  rcases hcommands _ _ hi with hi | ⟨hkey, -⟩
  · exact h.steady.commands a ha mode' i hi
  · obtain rfl := List.mem_singleton.1 ha
    exact absurd (congrArg CommandKey.type hkey) h.ne_recordType

/-- What is left of an insert once its record is bound: the statement, the key that the database
counted up, and the entry. -/
def settle (s : Setup σ) (m : Mapping) (e : Entity) (g : Guid) (sql : Sql) (params : List Param)
    (c : Connection σ) : Act.Written × Connection σ :=
  match (Act.exec sql params).run s c with
  | (.error err, c') => ((e, .error err), c')
  | (.ok r, c') =>
    if r.rowsAffected = 0 then ((e, .ok 0), c')
    else match m.withGeneratedKey e r.lastId with
      | .error err => ((e, .error err), c')
      | .ok e =>
        let (entered, c') := (Act.recordChange m (some g) .insert).run s c'
        ((e, entered.map fun _ => r.rowsAffected), c')

/-- An insert fails as its row does. -/
theorem run_insert_unstored {e e' : Entity} {mode : InsertMode} {err : Error}
    {c₁ c₂ : Connection σ} (hm : (Act.mapping e.type).run s c = (.ok m, c₁))
    (hrow : (Act.insertRow m e mode).run s c₁ = (.ok (e', .error err), c₂)) :
    (Act.insert e mode).run s c = (.ok (e', .error err), c₂) := by
  rw [Act.insert, Act.run_bind_attempt _ hm]
  exact Act.run_bind_ok _ hrow

theorem run_insert_stored {e e' : Entity} {g : Guid} {mode : InsertMode} {sql : Sql}
    {params : List Param} {c₁ c₂ c₃ : Connection σ}
    (hm : (Act.mapping e.type).run s c = (.ok m, c₁))
    (hp : (Act.prepare m e).run s c₁ = (.ok (e', g), c₂))
    (hst : (Act.store m e' g mode).run s c₂ = (Act.exec sql params).run s c₃) :
    (Act.insert e mode).run s c =
      (.ok (settle s m e' g sql params c₃).1, (settle s m e' g sql params c₃).2) := by
  rw [Act.insert, Act.run_bind_attempt _ hm]
  dsimp only
  unfold settle
  rcases hexec : (Act.exec sql params).run s c₃ with ⟨err | r, c₄⟩
  · rw [Act.run_bind_ok _ (Act.run_insertRow_unstored hp (hst.trans hexec))]
    rfl
  · have hrow := Act.run_insertRow hp (hst.trans hexec)
    cases hcount : r.rowsAffected with
    | zero =>
      rw [if_pos hcount] at hrow
      rw [Act.run_bind_ok _ hrow]
      simp [hcount]
    | succ k =>
      have hne : r.rowsAffected ≠ 0 := by rw [hcount]; exact Nat.succ_ne_zero k
      rw [if_neg hne] at hrow
      cases hkey : m.withGeneratedKey e' r.lastId with
      | error err =>
        rw [hkey] at hrow
        rw [Act.run_bind_ok _ hrow]
        simp [hne, hkey]
      | ok e'' =>
        rw [hkey, hcount] at hrow
        rw [Act.run_bind_ok _ hrow]
        dsimp only
        rw [Act.run_bind, Act.run_attempt, Act.run_bind, if_neg hne, hkey, hcount]
        dsimp only
        rcases (Act.recordChange m (some g) .insert).run s c₄ with ⟨err | ⟨⟨⟩⟩, c₅⟩ <;> rfl

theorem settle_error {e : Entity} {g : Guid} {sql : Sql} {params : List Param} {err : Error}
    {c' : Connection σ} (hexec : (Act.exec sql params).run s c = (.error err, c')) :
    settle s m e g sql params c = ((e, .error err), c') := by
  rw [settle, hexec]

theorem settle_zero {e : Entity} {g : Guid} {sql : Sql} {params : List Param} {r : ExecResult}
    {c' : Connection σ} (hexec : (Act.exec sql params).run s c = (.ok r, c'))
    (hr : r.rowsAffected = 0) : settle s m e g sql params c = ((e, .ok 0), c') := by
  rw [settle, hexec]
  dsimp only
  rw [if_pos hr]

/-- Once its row is there an insert is entered, or it fails: the key that was counted up cannot be
read, or the ledger refuses. -/
theorem settle_cases {M : Meaning} {R : Refusals} (hM : M.Lawful [Ledger.mapping])
    (hf : s.Faithful view M R [Ledger.mapping]) (hm : m.table ≠ Ledger.tableName) {e : Entity}
    {g : Guid} {sql : Sql} {params : List Param} {r : ExecResult} {c' : Connection σ}
    (hexec : (Act.exec sql params).run s c = (.ok r, c')) (hs : Steady s view [] c')
    (hr : r.rowsAffected ≠ 0) :
    (∃ e' entry c'', settle s m e g sql params c = ((e', .ok r.rowsAffected), c'') ∧
      m.withGeneratedKey e r.lastId = .ok e' ∧ entry.Enters m.table g .insert ∧
      Leaves s view [] c' c'' (Function.update (view c'.world).tables.rows Ledger.tableName
        (Ledger.keptApart [g] ((view c'.world).tables.rows Ledger.tableName) ++ [entry]))) ∨
    ∃ e' err c'', settle s m e g sql params c = ((e', .error err), c'') ∧
      (Leaves s view [] c' c'' (view c'.world).tables.rows ∧ (R.OfLedger ∨ err.IsUnreadable) ∨
        Leaves s view [] c' c'' (Function.update (view c'.world).tables.rows Ledger.tableName
          (Ledger.keptApart [g] ((view c'.world).tables.rows Ledger.tableName))) ∧ R.OfLedger) := by
  rw [settle, hexec]
  dsimp only
  rw [if_neg hr]
  cases hkey : m.withGeneratedKey e r.lastId with
  | error err =>
    have hunread := Mapping.reads_withGeneratedKey _ _ _ _ hkey
    exact .inr ⟨e, err, c', rfl, .inl ⟨.refl hs, .inr hunread⟩⟩
  | ok e' =>
    dsimp only
    rcases Act.run_recordChange_cases Tracked.Apart.nil hM hf hs hm g .insert with
      ⟨entry, c₂, h₂, henters, k₂⟩ | ⟨err, c₂, h₂, hno, k₂⟩
    · rw [h₂]
      exact .inl ⟨e', entry, c₂, rfl, rfl, henters, k₂⟩
    · rw [h₂]
      exact .inr ⟨e', .storage err, c₂, rfl, k₂.imp (⟨·, .inl hno⟩) (⟨·, hno⟩)⟩

/-- Only a replacement names a column that counts up. -/
theorem columns_derive (d : Dialect) (m : Mapping) (mode : InsertMode) :
    (InsertCommand.derive d m mode).columns =
      m.positionsWhere fun _ c => mode == .replace || !c.autoIncrement := by
  cases mode <;> rfl

theorem isSome_of_mem_derive {mode : InsertMode} {d : Dialect} {j : Nat}
    (hj : j ∈ (InsertCommand.derive d m mode).columns) : (m.column? j).isSome := by
  rw [columns_derive] at hj
  exact Mapping.isSome_of_mem_positionsWhere hj

/-- An insert fails before its statement, or comes to it with the bound record. -/
theorem of_run_insert {e : Entity} (h : Enrolled s view e.type m c) {mode : InsertMode}
    {w : Act.Written} {c' : Connection σ} (hrun : (Act.insert e mode).run s c = (.ok w, c')) :
    let i := InsertCommand.derive s.config.dialect m mode
    ((∃ err, w.2 = .error err) ∧ c'.world = c.world) ∨
      ∃ c₁ e₁ params, c₁.world = c.world ∧ Steady s view [] c₁ ∧
        i.columns.mapM (fun j => m.param j (m.bound e₁ (s.guid c.guidsDrawn) j)) = .ok params ∧
        params.map Param.name = (m.columnsAt i.columns).map Column.name ∧
        settle s m e₁ (s.guid c.guidsDrawn) i.sql params c₁ = (w, c') := by
  intro i
  obtain ⟨c₁, h₁, hw₁, hg₁, hm₁⟩ := h.run_mapping
  obtain ⟨r, n, hp, -, hprepared⟩ := Act.run_prepare (s := s) (c := c₁) h.not_isLedger e
  have hn := hm₁.drawing n
  have hfailed {e' : Entity} {err : Error} {c₂ : Connection σ} (hw₂ : c₂.world = c.world)
      (hrow : (Act.insertRow m e mode).run s c₁ = (.ok (e', .error err), c₂)) :
      (∃ err, w.2 = .error err) ∧ c'.world = c.world := by
    cases (run_insert_unstored h₁ hrow).symm.trans hrun
    exact ⟨⟨err, rfl⟩, hw₂⟩
  rcases r with err | ⟨e', g⟩
  · have hw : ({ c₁ with guidsDrawn := n } : Connection σ).world = c.world := hw₁
    exact .inl (hfailed hw (Act.run_insertRow_unprepared hp))
  · obtain ⟨rfl, htype⟩ := hprepared e' g rfl
    rw [← htype] at hn
    rw [hg₁] at hp
    obtain ⟨c₂, h₂, hw₂, hs₂⟩ := hn.run_insertCommand mode
    cases hparams : i.columns.mapM
      (fun j => m.param j (m.bound e' (s.guid c.guidsDrawn) j)) with
    | error err =>
      have hstore := Act.run_store_unbound h₂ hparams
      exact .inl (hfailed (hw₂.trans hw₁) (Act.run_insertRow_unstored hp hstore))
    | ok params =>
      have hnames := Act.names_of_mapM (fun j hj => isSome_of_mem_derive hj) hparams
      have hins := run_insert_stored h₁ hp (Act.run_store_bound h₂ hparams)
      obtain ⟨hfst, hsnd⟩ := Prod.mk.inj (hins.symm.trans hrun)
      refine .inr ⟨c₂, e', params, hw₂.trans hw₁, hs₂, hparams, hnames, ?_⟩
      exact Prod.ext (Except.ok.inj hfst) hsnd

end Enrolled

/-- One setting, with the entry of its insert. -/
def Samples.themeTables : Tables where
  columns := Function.update Samples.settingStore.1.tables.columns Ledger.tableName
    (Ledger.mapping.columns.map Column.name)
  rows t :=
    if t = "Setting" then
      [Record.assign (fun _ => .null) [⟨"Name", .text "theme"⟩, ⟨"Value", .text "dark"⟩,
        ⟨"SyncGuid", (Samples.settingSetup.guid 0).stored⟩]]
    else if t = Ledger.tableName then
      [Record.assign (fun _ => .null) [⟨"TableName", .text "Setting"⟩,
        ⟨"SyncGuid", (Samples.settingSetup.guid 0).stored⟩,
        ⟨"Action", .int ⟨Action.insert.ordinal.val, by decide⟩⟩]]
    else []

def Samples.themeStore : Memory.Store [Samples.settings.mapping] :=
  ⟨⟨Samples.themeTables, none⟩, by decide +kernel⟩

theorem Samples.themeStore_enrolled (s : Setup (Memory.Store [Samples.settings.mapping]))
    (n : Nat) : Enrolled s Subtype.val Samples.setting Samples.settings.mapping
      { world := Samples.themeStore, guidsDrawn := n } where
  mapped := ⟨_, Samples.settings.mapped⟩
  type_ne := Samples.settings.type_ne
  table_ne := Samples.settings.table_ne
  uses := Samples.settings.mapped
  commands := by
    intro mode i h
    cases h
  present := by
    have hpresent : Samples.themeStore.1.tables.columns Samples.settings.mapping.table ≠ [] := by
      decide +kernel
    exact hpresent
  steady := by
    have hledger : Samples.themeStore.1.tables.columns Ledger.tableName =
        Ledger.mapping.columns.map Column.name := by decide +kernel
    have hopened : Steady s Subtype.val [] { world := Samples.themeStore } :=
      .opened (fun t ht => absurd ht List.not_mem_nil) (fun t ht => absurd ht List.not_mem_nil)
        fun _ => hledger
    exact hopened.of_eq rfl rfl rfl rfl id

end RowLedger
