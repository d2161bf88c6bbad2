import RowLedger.Proofs.Connection.Steady
import RowLedger.Proofs.Text.Hexadecimal

/-!
Entries of the ledger are written over earlier ones. The ledger itself refuses nothing but a second
entry for the same row.
-/

namespace RowLedger

/-- The refusals of a database that takes every statement on the ledger, unless an identifier is
entered that is there already. -/
def Refusals.main : Refusals where
  command c
    | .insert m _ params =>
      m.table ≠ Ledger.tableName ∨
        ∃ r ∈ c.tables.rows m.table, ∃ p ∈ params,
          p.name = m.syncColumn.name ∧ r p.name = p.value
    | .update m _ _ _ | .delete m _ => m.table ≠ Ledger.tableName
    | _ => False
  question
    | .identifiers _ (some _) => True
    | _ => False

/-- A statement that keeps the ledger may be refused, other than a second entry for a row. -/
inductive Refusals.OfLedger (R : Refusals) : Prop
  | columns (h : R.question (.columns Ledger.mapping))
  | create {d : Contents} (h : R.command d (.create Ledger.mapping))
  | delete {d : Contents} {condition : Option Condition}
      (h : R.command d (.delete Ledger.mapping condition))
  | insert {d : Contents} {params : List Param}
      (hnew : ∀ r ∈ d.tables.rows Ledger.tableName, ∀ p ∈ params,
        p.name = "SyncGuid" → r "SyncGuid" ≠ p.value)
      (h : R.command d (.insert Ledger.mapping false params))

theorem Refusals.not_ofLedger_main : ¬Refusals.main.OfLedger := by
  intro h
  cases h with
  | columns h => exact h
  | create h => exact h
  | delete h => exact h rfl
  | insert hnew h =>
    obtain hne | ⟨r, hr, p, hp, hname, hvalue⟩ := h
    · exact hne rfl
    · rw [Ledger.name_syncColumn] at hname
      rw [hname] at hvalue
      exact hnew r hr p hp hname hvalue

/-- How the conditions compare that the ledger is kept with. -/
structure Meaning.Lawful (M : Meaning) (ms : List Mapping) : Prop where
  keyed (t : String) (k : Param) (r : Record) :
    M.holds t (.keyed k) r = M.same t k.name (r k.name) k.value
  /-- What something equals, equals itself. -/
  itself {t c : String} {x v : SqlValue} : M.same t c x v = true → M.same t c v v = true
  null {t c : String} {x : SqlValue} : M.same t c x .null = false
  identifier {m : Mapping} {g h : Guid} :
    m ∈ ms → M.same m.table m.syncColumn.name g.stored h.stored = true → g = h
  entry {c : String} (text : String) (r : Record) :
    c ∈ ["TableName", "SyncGuid"] →
      M.holds Ledger.tableName (.equal c ⟨c, .text text⟩) r = (r c == .text text)

/-- A row of the ledger says what was done to a row of a table. -/
structure Record.Enters (r : Record) (table : String) (row : Guid) (action : Action) : Prop where
  table : r "TableName" = .text table
  row : r "SyncGuid" = row.stored
  action : action.toValue.toSql = .ok (r "Action")

namespace Ledger

/-- The rows of the ledger that are about other rows than these. -/
def keptApart (gs : List Guid) (rows : List Record) : List Record :=
  rows.filter fun r => !gs.any fun g => r "SyncGuid" == g.stored

theorem keptApart_append (gs : List Guid) (as bs : List Record) :
    keptApart gs (as ++ bs) = keptApart gs as ++ keptApart gs bs := List.filter_append ..

theorem keptApart_cons (g : Guid) (gs : List Guid) (rows : List Record) :
    keptApart (g :: gs) rows = keptApart gs (keptApart [g] rows) := by
  simp only [keptApart, List.filter_filter]
  refine List.filter_congr fun r _ => ?_
  simp [Bool.and_comm]

theorem keptApart_of_enters {gs : List Guid} {r : Record} {table : String} {g : Guid}
    {action : Action} (hr : r.Enters table g action) (hg : g ∉ gs) : keptApart gs [r] = [r] := by
  rw [keptApart, List.filter_eq_self]
  intro e he
  rw [List.mem_singleton.1 he, hr.row]
  simp only [Bool.not_eq_true', List.any_eq_false, beq_iff_eq]
  intro h hh heq
  rw [Guid.stored_injective heq] at hg
  exact hg hh

end Ledger

namespace Act

open Ledger (keptApart)

variable {σ : Type} {s : Setup σ} {view : σ → Contents} {ts : List Tracked} {c : Connection σ}
  {M : Meaning} {R : Refusals}

/-- A statement is carried out, or refused without effect. -/
theorem run_command {known : List Mapping} (hf : s.Faithful view M R known) (cmd : TableCommand)
    (hknown : ∀ m ∈ cmd.mapping?, m ∈ known) (hfits : cmd.Fits (view c.world)) :
    (∃ r w, (exec (cmd.sql s.config.dialect) cmd.params).run s c = (.ok r, { c with world := w }) ∧
      cmd.Effect M (view c.world) r.rowsAffected (view w)) ∨
    ∃ e w, (exec (cmd.sql s.config.dialect) cmd.params).run s c =
        (.error (.storage e), { c with world := w }) ∧
      view w = view c.world ∧ R.command (view c.world) cmd := by
  have h := hf.executes cmd hknown hfits
  rw [run_exec]
  generalize s.driver.execute _ _ _ = reply at h
  cases h with
  | done h => exact .inl ⟨_, _, rfl, h⟩
  | refused h hw => exact .inr ⟨_, _, rfl, hw, h⟩

theorem ledger_mem_mappings : Ledger.mapping ∈ Tracked.mappings ts :=
  Tracked.mem_mappings (Tracked.ledger_mem_known ts)

/-- The columns of the ledger as the database lists them. -/
theorem run_tableInfo_cases (hf : s.Faithful view M R (Tracked.mappings ts)) :
    (∃ infos w, (tableInfo Ledger.mapping.table).run s c = (.ok infos, { c with world := w }) ∧
      view w = view c.world ∧
      infos.map ColumnInfo.name = (view c.world).tables.columns Ledger.tableName) ∨
    ∃ e w, (tableInfo Ledger.mapping.table).run s c = (.error (.storage e), { c with world := w }) ∧
      view w = view c.world ∧ R.question (.columns Ledger.mapping) := by
  have hknown : Ledger.mapping ∈ Tracked.mappings ts := ledger_mem_mappings
  have hlists := hf.lists (w := c.world) hknown
  rw [tableInfo, run_bind_ok _ run_dialect, run_bind, run_query]
  change Carried _ _ _ _ (s.driver.query (s.config.dialect.render
    (s.config.dialect.tableInfo Ledger.mapping.table)) [] c.world) at hlists
  generalize s.driver.query _ _ _ = reply at hlists
  cases hlists with
  | @done set w h' => exact .inl ⟨columnInfos set, w, rfl, h'.1, h'.2⟩
  | @refused e w h' hw => exact .inr ⟨e, w, rfl, hw, h'⟩

/-- A listed table lacks none of its columns. -/
theorem missingColumns_eq_nil {m : Mapping} {infos : List ColumnInfo}
    (h : infos.map ColumnInfo.name = m.columns.map Column.name) : missingColumns m infos = [] := by
  rw [missingColumns, List.filter_eq_nil_iff]
  intro c hc
  have hname : c.name ∈ infos.map ColumnInfo.name := by
    rw [h]
    exact List.mem_map_of_mem hc
  obtain ⟨i, hi, hname⟩ := List.mem_map.1 hname
  have hany : infos.any (fun i => Text.sameName i.name c.name) = true :=
    List.any_eq_true.2 ⟨i, hi, by rw [hname]; exact Text.sameName_refl _⟩
  simp [hany]

/-- The ledger is there afterwards, or the database did not tell or refused to make it. -/
theorem run_createLedger_cases (hf : s.Faithful view M R (Tracked.mappings ts))
    (h : Steady s view ts c) :
    (∃ o c', (createTable Ledger.mapping).run s c = (.ok o, c') ∧
      Leaves s view ts c c' (view c.world).tables.rows ∧
      (view c'.world).tables.Has Ledger.tableName) ∨
    ∃ e c', (createTable Ledger.mapping).run s c = (.error (.storage e), c') ∧
      Leaves s view ts c c' (view c.world).tables.rows ∧
      R.OfLedger := by
  rw [createTable, run_bind_ok _ run_dialect]
  rcases run_tableInfo_cases (c := c) hf with ⟨infos, w, hinfo, hw, hinfos⟩ | ⟨e, w, hinfo, hw, hno⟩
  · have k := Leaves.sameView h hw
    rw [run_bind_ok _ hinfo]
    by_cases hhas : (view c.world).tables.Has Ledger.tableName
    · have hsome : infos.isEmpty = false := by
        cases infos with
        | nil => exact absurd hinfos.symm hhas
        | cons => rfl
      rw [hsome, missingColumns_eq_nil (hinfos.trans (h.ledger hhas)), Ledger.indexes_mapping]
      exact .inl ⟨.migrated, _, rfl, k, k.ledger hhas⟩
    · have hnone : infos.isEmpty = true := by
        rw [not_not.1 hhas, List.map_eq_nil_iff] at hinfos
        rw [hinfos]
        rfl
      have hfits : (TableCommand.create Ledger.mapping).Fits (view w) := by
        rw [hw]
        exact hhas
      rw [hnone, Ledger.indexes_mapping]
      rcases run_command (c := { c with world := w }) hf (.create Ledger.mapping)
        (fun m hm => Option.mem_some.1 hm ▸ ledger_mem_mappings) hfits with
        ⟨r, w', hr, hw'⟩ | ⟨e, w', hr, hw', hno⟩
      · have hissue : (issue (s.config.dialect.createTable Ledger.mapping)).run s
            { c with world := w } = (.ok (), { c with world := w' }) := run_bind_ok _ hr
        have hmade := Leaves.withLedger (w := w') k.steady hw'
        exact .inl ⟨.created, { c with world := w' }, run_bind_ok _ hissue, k.still hmade.1,
          hmade.2⟩
      · have hissue : (issue (s.config.dialect.createTable Ledger.mapping)).run s
            { c with world := w } = (.error (.storage e), { c with world := w' }) :=
          run_bind_error _ hr
        refine .inr ⟨e, { c with world := w' }, run_bind_error _ hissue, ?_, .create hno⟩
        exact k.still (.sameView k.steady hw')
  · exact .inr ⟨e, { c with world := w }, run_bind_error _ hinfo, .sameView h hw, .columns hno⟩

theorem run_ensureLedger_cases (hts : Tracked.Apart ts)
    (hf : s.Faithful view M R (Tracked.mappings ts)) (h : Steady s view ts c) :
    (∃ c', ensureLedger.run s c = (.ok (), c') ∧
      Leaves s view ts c c' (view c.world).tables.rows ∧
      (view c'.world).tables.Has Ledger.tableName) ∨
    ∃ e c', ensureLedger.run s c = (.error (.storage e), c') ∧
      Leaves s view ts c c' (view c.world).tables.rows ∧
      R.OfLedger := by
  rw [ensureLedger, run_bind_ok _ run_state]
  by_cases hready : c.ledgerReady = true
  · rw [hready]
    exact .inl ⟨c, rfl, .refl h, h.ready hready⟩
  · obtain ⟨c₁, h₁, k₁⟩ := run_mapping hts h (Tracked.ledger_mem_known ts)
    rw [eq_false_of_ne_true hready, Bool.not_false, if_pos rfl, initLedger, run_bind_ok _ h₁]
    rcases run_createLedger_cases hf k₁.steady with
      ⟨o, c₂, h₂, k₂, hhas⟩ | ⟨e, c₂, h₂, k₂, hno⟩
    · have k := k₁.still k₂
      have hs := k.steady
      rw [run_bind_ok _ h₂]
      refine .inl ⟨{ c₂ with ledgerReady := true }, rfl,
        ⟨?_, k.rows, k.saved, k.depth, k.drawn, k.ledger, k.columns⟩, hhas⟩
      exact ⟨hs.uses, hs.commands, hs.subscribers, hs.tables, hs.ledger, fun _ => hhas⟩
    · exact .inr ⟨e, c₂, run_bind_error _ h₂, k₁.still k₂, hno⟩

theorem run_ensureLedger (hts : Tracked.Apart ts)
    (hf : s.Faithful view M .main (Tracked.mappings ts)) (h : Steady s view ts c) :
    ∃ c', ensureLedger.run s c = (.ok (), c') ∧
      Leaves s view ts c c' (view c.world).tables.rows ∧
      (view c'.world).tables.Has Ledger.tableName := by
  refine (run_ensureLedger_cases hts hf h).resolve_right ?_
  rintro ⟨e, c', -, -, hno⟩
  exact Refusals.not_ofLedger_main hno

/-! Removing and adding entries. -/

theorem run_ledgerTable (hts : Tracked.Apart ts) (h : Steady s view ts c) :
    ∃ c', ledgerTable.run s c =
        (.ok { type := Ledger.recordType, mapping := Ledger.mapping }, c') ∧
      Leaves s view ts c c' (view c.world).tables.rows := by
  obtain ⟨c', h', k⟩ := run_mapping hts h (Tracked.ledger_mem_known ts)
  exact ⟨c', run_bind_ok _ h', k⟩

theorem run_removeEntries_cases (hts : Tracked.Apart ts)
    (hf : s.Faithful view M R (Tracked.mappings ts)) (h : Steady s view ts c)
    (hhas : (view c.world).tables.Has Ledger.tableName) {e : Expr}
    {condition : Condition} (he : compile e Ledger.mapping s.config.dialect = .ok condition) :
    (∃ n c', (removeEntries e).run s c = (.ok n, c') ∧
      Leaves s view ts c c' (Function.update (view c.world).tables.rows Ledger.tableName
        (((view c.world).tables.rows Ledger.tableName).filter fun r =>
          !M.holds Ledger.tableName condition r))) ∨
    ∃ err c', (removeEntries e).run s c = (.error (.storage err), c') ∧
      Leaves s view ts c c' (view c.world).tables.rows ∧ R.OfLedger := by
  obtain ⟨c₁, h₁, k₁⟩ := run_ledgerTable hts h
  rw [removeEntries, run_bind_ok _ h₁, run_bind_ok _ run_dialect, he]
  rcases run_command (c := c₁) hf (.delete Ledger.mapping (some condition))
    (fun m hm => Option.mem_some.1 hm ▸ ledger_mem_mappings) (k₁.ledger hhas) with
    ⟨r, w, hr, -, hw⟩ | ⟨err, w, hr, hw, hno⟩
  · have k₂ := Leaves.withRows k₁.steady hw
    rw [k₁.rows] at k₂
    exact .inl ⟨r.rowsAffected, { c₁ with world := w }, run_bind_ok _ hr, k₁.trans k₂⟩
  · have hdelete : (deleteRows Ledger.mapping condition).run s c₁ =
        (.error (.storage err), { c₁ with world := w }) := run_execCount_error hr
    refine .inr ⟨err, { c₁ with world := w }, hdelete, ?_, .delete hno⟩
    exact k₁.still (.sameView k₁.steady hw)

theorem run_prepare_entry (table : String) (row : Guid) (action : Action) :
    (prepare Ledger.mapping (Ledger.Entry.toEntity table row action)).run s c =
      (.ok (Ledger.Entry.toEntity table row action, row), c) := rfl

theorem params_entry (table : String) (row : Guid) (action : Action) :
    ∃ stored, action.toValue.toSql = .ok stored ∧
      Ledger.mapping.insertColumns.mapM (fun i => Ledger.mapping.param i
        (if i = Ledger.mapping.sync then .guid row
          else Ledger.mapping.get (Ledger.Entry.toEntity table row action) i)) =
        .ok [⟨"TableName", .text table⟩, ⟨"SyncGuid", row.stored⟩, ⟨"Action", stored⟩] := by
  rw [Ledger.insertColumns_mapping]
  cases action <;> exact ⟨_, rfl, rfl⟩

theorem withGeneratedKey_entry (table : String) (row : Guid) (action : Action)
    (id : Option (Sized .i64)) :
    ∃ e, Ledger.mapping.withGeneratedKey (Ledger.Entry.toEntity table row action) id = .ok e := by
  cases id with
  | none => exact ⟨_, rfl⟩
  | some n =>
    have hread : Value.ofSql (.int .i64) (.bigInt n) = .ok (.int n) := by
      simp [Value.ofSql, SqlValue.isNull, Kind.decoder?, Decode.sized, Decode.integer, bind,
        Except.bind]
    change ∃ e, (Value.ofSql (.int .i64) (.bigInt n) >>= fun v =>
      Ledger.mapping.set (Ledger.Entry.toEntity table row action) 0 v) = .ok e
    rw [hread]
    exact ⟨_, rfl⟩

/-- An entry is added at the end, or refused: if the row has none, by a refusal of the ledger's. -/
theorem run_addEntry_cases (hts : Tracked.Apart ts)
    (hf : s.Faithful view M R (Tracked.mappings ts)) (h : Steady s view ts c)
    (hhas : (view c.world).tables.Has Ledger.tableName) (table : String) (row : Guid)
    (action : Action) :
    (∃ (r : Record) (c' : Connection σ), (addEntry table row action).run s c = (.ok (), c') ∧
      r.Enters table row action ∧
      Leaves s view ts c c' (Function.update (view c.world).tables.rows Ledger.tableName
        ((view c.world).tables.rows Ledger.tableName ++ [r]))) ∨
    ∃ e c', (addEntry table row action).run s c = (.error (.storage e), c') ∧
      Leaves s view ts c c' (view c.world).tables.rows ∧
      ((∀ r ∈ (view c.world).tables.rows Ledger.tableName, r "SyncGuid" ≠ row.stored) →
        R.OfLedger) := by
  obtain ⟨stored, hstored, hparams⟩ := params_entry table row action
  obtain ⟨c₁, h₁, k₁⟩ := run_mapping hts h (Tracked.ledger_mem_known ts)
  obtain ⟨c₂, k₂, h₂⟩ := run_store hts k₁.steady (Tracked.ledger_mem_known ts) row false hparams
  have k := k₁.still k₂
  have hprepare := run_prepare_entry (s := s) (c := c₁) table row action
  let cmd : TableCommand := .insert Ledger.mapping false
    [⟨"TableName", .text table⟩, ⟨"SyncGuid", row.stored⟩, ⟨"Action", stored⟩]
  have hfits : cmd.Fits (view c₂.world) := ⟨k.ledger hhas, Ledger.names_insertColumns.symm⟩
  rw [addEntry, run_bind_ok _ h₁]
  rcases run_command (c := c₂) hf cmd (fun m hm => Option.mem_some.1 hm ▸ ledger_mem_mappings)
    hfits with ⟨r, w, hr, heffect⟩ | ⟨e, w, hr, hw, hno⟩
  · obtain ⟨hone, e, he, hw⟩ | ⟨himp, -⟩ := heffect
    · have k₃ := Leaves.withRows k.steady hw
      rw [k.rows] at k₃
      obtain ⟨e', he'⟩ := withGeneratedKey_entry table row action r.lastId
      have hinsert := run_insertRow hprepare (h₂.trans hr)
      have hne : r.rowsAffected ≠ 0 := by
        rw [hone]
        decide
      rw [if_neg hne, he'] at hinsert
      have hcells : e "TableName" = .text table ∧ e "SyncGuid" = row.stored ∧
          e "Action" = stored := by simpa using he
      refine .inl ⟨e, { c₂ with world := w }, run_bind_ok _ hinsert,
        ⟨hcells.1, hcells.2.1, ?_⟩, k.trans k₃⟩
      rw [hcells.2.2]
      exact hstored
    · cases himp
  · have hinsert := run_insertRow_unstored hprepare (h₂.trans hr)
    refine .inr ⟨e, { c₂ with world := w }, run_bind_ok _ hinsert,
      k.still (.sameView k.steady hw), fun hnew => .insert ?_ hno⟩
    intro r hr p hp hname
    rw [k.rows] at hr
    simp only [List.mem_cons, List.not_mem_nil, or_false] at hp
    rcases hp with rfl | rfl | rfl
    · simp at hname
    · exact hnew r hr
    · simp at hname

/-- The rows that the removal of an entry leaves. -/
theorem keptApart_of_holds (hM : M.Lawful (Tracked.mappings ts)) (row : Guid)
    (rows : List Record) :
    (rows.filter fun r =>
      !M.holds Ledger.tableName (.equal "SyncGuid" ⟨"SyncGuid", .text row.text⟩) r) =
        keptApart [row] rows := by
  rw [keptApart]
  refine List.filter_congr fun r _ => ?_
  rw [hM.entry row.text r (by simp)]
  simp [Guid.stored]

/-- An entry takes the place of the earlier one for the same row. That one is gone also where the
database refuses the new one. -/
theorem run_writeEntry_cases (hts : Tracked.Apart ts) (hM : M.Lawful (Tracked.mappings ts))
    (hf : s.Faithful view M R (Tracked.mappings ts)) (h : Steady s view ts c)
    (hhas : (view c.world).tables.Has Ledger.tableName) (table : String) (row : Guid)
    (action : Action) :
    (∃ (r : Record) (c' : Connection σ), (writeEntry table row action).run s c = (.ok (), c') ∧
      r.Enters table row action ∧
      Leaves s view ts c c' (Function.update (view c.world).tables.rows Ledger.tableName
        (keptApart [row] ((view c.world).tables.rows Ledger.tableName) ++ [r]))) ∨
    ∃ e c', (writeEntry table row action).run s c = (.error (.storage e), c') ∧ R.OfLedger ∧
      (Leaves s view ts c c' (view c.world).tables.rows ∨
        Leaves s view ts c c' (Function.update (view c.world).tables.rows Ledger.tableName
          (keptApart [row] ((view c.world).tables.rows Ledger.tableName)))) := by
  rw [writeEntry]
  rcases run_removeEntries_cases hts hf h hhas (Ledger.compile_ofRow row s.config.dialect) with
    ⟨n, c₁, h₁, k₁⟩ | ⟨e, c₁, h₁, k₁, hno⟩
  · rw [keptApart_of_holds hM] at k₁
    have hrows : (view c₁.world).tables.rows Ledger.tableName =
        keptApart [row] ((view c.world).tables.rows Ledger.tableName) := by
      rw [k₁.rows, Function.update_self]
    have hnew : ∀ r ∈ (view c₁.world).tables.rows Ledger.tableName,
        r "SyncGuid" ≠ row.stored := by
      intro r hr
      rw [hrows] at hr
      simpa [keptApart] using (List.mem_filter.1 hr).2
    rw [run_bind_ok _ h₁]
    rcases run_addEntry_cases hts hf k₁.steady (k₁.ledger hhas) table row action with
      ⟨r, c₂, h₂, hr, k₂⟩ | ⟨e, c₂, h₂, k₂, hno⟩
    · rw [hrows, k₁.rows, Function.update_idem] at k₂
      exact .inl ⟨r, c₂, h₂, hr, k₁.trans k₂⟩
    · exact .inr ⟨e, c₂, h₂, hno hnew, .inr (k₁.still k₂)⟩
  · exact .inr ⟨e, c₁, run_bind_error _ h₁, hno, .inl k₁⟩

theorem run_writeEntry (hts : Tracked.Apart ts) (hM : M.Lawful (Tracked.mappings ts))
    (hf : s.Faithful view M .main (Tracked.mappings ts)) (h : Steady s view ts c)
    (hhas : (view c.world).tables.Has Ledger.tableName) (table : String) (row : Guid)
    (action : Action) :
    ∃ (r : Record) (c' : Connection σ), (writeEntry table row action).run s c = (.ok (), c') ∧
      r.Enters table row action ∧
      Leaves s view ts c c' (Function.update (view c.world).tables.rows Ledger.tableName
        (keptApart [row] ((view c.world).tables.rows Ledger.tableName) ++ [r])) := by
  refine (run_writeEntry_cases hts hM hf h hhas table row action).resolve_right ?_
  rintro ⟨e, c', -, hno, -⟩
  exact Refusals.not_ofLedger_main hno

theorem run_writeEntries (hts : Tracked.Apart ts) (hM : M.Lawful (Tracked.mappings ts))
    (hf : s.Faithful view M .main (Tracked.mappings ts)) (h : Steady s view ts c)
    (hhas : (view c.world).tables.Has Ledger.tableName) (table : String) {gs : List Guid}
    (hgs : gs.Nodup) (action : Action) :
    ∃ (es : List Record) (c' : Connection σ),
      (gs.forM fun g => writeEntry table g action).run s c = (.ok (), c') ∧
      List.Forall₂ (fun g e => e.Enters table g action) gs es ∧
      Leaves s view ts c c' (Function.update (view c.world).tables.rows Ledger.tableName
        (keptApart gs ((view c.world).tables.rows Ledger.tableName) ++ es)) := by
  induction gs generalizing c with
  | nil =>
    refine ⟨[], c, rfl, .nil, ?_⟩
    have hsame : keptApart [] ((view c.world).tables.rows Ledger.tableName) =
        (view c.world).tables.rows Ledger.tableName := List.filter_eq_self.2 fun _ _ => rfl
    rw [hsame, List.append_nil, Function.update_eq_self]
    exact .refl h
  | cons g gs ih =>
    obtain ⟨hg, hgs⟩ := List.nodup_cons.1 hgs
    obtain ⟨r, c₁, h₁, hr, k₁⟩ := run_writeEntry hts hM hf h hhas table g action
    obtain ⟨es, c₂, h₂, hes, k₂⟩ := ih k₁.steady (k₁.ledger hhas) hgs
    rw [k₁.rows, Function.update_self, Function.update_idem, Ledger.keptApart_append,
      Ledger.keptApart_of_enters hr hg, ← Ledger.keptApart_cons, List.append_assoc] at k₂
    refine ⟨r :: es, c₂, ?_, .cons hr hes, k₁.trans k₂⟩
    exact (run_bind_ok _ h₁).trans h₂

/-- Entries are added in order, or one of them is refused: if the rows have none, by a refusal of the
ledger's. -/
theorem run_addEntries_cases (hts : Tracked.Apart ts)
    (hf : s.Faithful view M R (Tracked.mappings ts)) (h : Steady s view ts c)
    (hhas : (view c.world).tables.Has Ledger.tableName) (table : String) (gs : List Guid)
    (action : Action) :
    (∃ (es : List Record) (c' : Connection σ),
      (gs.forM fun g => addEntry table g action).run s c = (.ok (), c') ∧
      List.Forall₂ (fun g e => e.Enters table g action) gs es ∧
      Leaves s view ts c c' (Function.update (view c.world).tables.rows Ledger.tableName
        ((view c.world).tables.rows Ledger.tableName ++ es))) ∨
    ∃ e c' rows, (gs.forM fun g => addEntry table g action).run s c = (.error (.storage e), c') ∧
      Leaves s view ts c c' rows ∧
      (gs.Nodup → (∀ r ∈ (view c.world).tables.rows Ledger.tableName, ∀ g ∈ gs,
        r "SyncGuid" ≠ g.stored) → R.OfLedger) := by
  induction gs generalizing c with
  | nil =>
    refine .inl ⟨[], c, rfl, .nil, ?_⟩
    rw [List.append_nil, Function.update_eq_self]
    exact .refl h
  | cons g gs ih =>
    rcases run_addEntry_cases hts hf h hhas table g action with
      ⟨r, c₁, h₁, hr, k₁⟩ | ⟨e, c₁, h₁, k₁, hno⟩
    · rcases ih k₁.steady (k₁.ledger hhas) with
        ⟨es, c₂, h₂, hes, k₂⟩ | ⟨e, c₂, rows, h₂, k₂, hno⟩
      · rw [k₁.rows, Function.update_self, Function.update_idem, List.append_assoc] at k₂
        refine .inl ⟨r :: es, c₂, ?_, .cons hr hes, k₁.trans k₂⟩
        exact (run_bind_ok _ h₁).trans h₂
      · refine .inr ⟨e, c₂, rows, (run_bind_ok _ h₁).trans h₂, k₁.trans k₂, fun hgs hnew => ?_⟩
        obtain ⟨hg, hgs⟩ := List.nodup_cons.1 hgs
        refine hno hgs fun e he g' hg' => ?_
        rw [k₁.rows, Function.update_self] at he
        rcases List.mem_append.1 he with he | he
        · exact hnew e he g' (List.mem_cons_of_mem _ hg')
        · rw [List.mem_singleton.1 he, hr.row]
          intro heq
          rw [Guid.stored_injective heq] at hg
          exact hg hg'
    · exact .inr ⟨e, c₁, _, run_bind_error _ h₁, k₁, fun _ hnew =>
        hno fun r hr => hnew r hr g List.mem_cons_self⟩

/-! Recording changes of tracked tables. -/

/-- A change of a row is entered. If the database refuses that, the row may have no entry left. -/
theorem run_recordChange_cases (hts : Tracked.Apart ts) (hM : M.Lawful (Tracked.mappings ts))
    (hf : s.Faithful view M R (Tracked.mappings ts)) (h : Steady s view ts c) {m : Mapping}
    (hm : m.table ≠ Ledger.tableName) (g : Guid) (action : Action) :
    (∃ (r : Record) (c' : Connection σ), (recordChange m (some g) action).run s c = (.ok (), c') ∧
      r.Enters m.table g action ∧
      Leaves s view ts c c' (Function.update (view c.world).tables.rows Ledger.tableName
        (keptApart [g] ((view c.world).tables.rows Ledger.tableName) ++ [r]))) ∨
    ∃ e c', (recordChange m (some g) action).run s c = (.error (.storage e), c') ∧ R.OfLedger ∧
      (Leaves s view ts c c' (view c.world).tables.rows ∨
        Leaves s view ts c c' (Function.update (view c.world).tables.rows Ledger.tableName
          (keptApart [g] ((view c.world).tables.rows Ledger.tableName)))) := by
  have hother : isLedger m = false := beq_false_of_ne hm
  rw [recordChange, hother]
  simp only [Bool.not_false, if_true]
  rcases run_ensureLedger_cases hts hf h with ⟨c₁, h₁, k₁, hhas⟩ | ⟨e, c₁, h₁, k₁, hno⟩
  · rw [run_bind_ok _ h₁]
    rcases run_writeEntry_cases hts hM hf k₁.steady hhas m.table g action with
      ⟨r, c₂, h₂, hr, k₂⟩ | ⟨e, c₂, h₂, hno, k₂⟩
    · obtain ⟨c₃, h₃, k₃⟩ := run_notify k₂.steady m action
      rw [k₁.rows] at k₂
      refine .inl ⟨r, c₃, ?_, hr, (k₁.trans k₂).still k₃⟩
      rw [run_bind_ok _ h₂]
      exact h₃
    · rw [k₁.rows] at k₂
      exact .inr ⟨e, c₂, run_bind_error _ h₂, hno, k₂.imp k₁.trans k₁.trans⟩
  · exact .inr ⟨e, c₁, run_bind_error _ h₁, hno, .inl k₁⟩

theorem run_recordChange (hts : Tracked.Apart ts) (hM : M.Lawful (Tracked.mappings ts))
    (hf : s.Faithful view M .main (Tracked.mappings ts)) (h : Steady s view ts c) (t : Tracked)
    (g : Guid) (action : Action) :
    ∃ (r : Record) (c' : Connection σ),
      (recordChange t.mapping (some g) action).run s c = (.ok (), c') ∧
      r.Enters t.mapping.table g action ∧
      Leaves s view ts c c' (Function.update (view c.world).tables.rows Ledger.tableName
        (keptApart [g] ((view c.world).tables.rows Ledger.tableName) ++ [r])) := by
  refine (run_recordChange_cases hts hM hf h t.table_ne g action).resolve_right ?_
  rintro ⟨e, c', -, hno, -⟩
  exact Refusals.not_ofLedger_main hno

theorem run_recordDeleted (hts : Tracked.Apart ts) (hM : M.Lawful (Tracked.mappings ts))
    (hf : s.Faithful view M .main (Tracked.mappings ts)) (h : Steady s view ts c) (t : Tracked)
    {gs : List Guid} (hgs : gs.Nodup) :
    ∃ (es : List Record) (c' : Connection σ),
      (recordDeleted t.mapping gs).run s c = (.ok (), c') ∧
      List.Forall₂ (fun g e => e.Enters t.mapping.table g .delete) gs es ∧
      Leaves s view ts c c' (Function.update (view c.world).tables.rows Ledger.tableName
        (keptApart gs ((view c.world).tables.rows Ledger.tableName) ++ es)) := by
  obtain ⟨c₁, h₁, k₁, hhas⟩ := run_ensureLedger hts hf h
  obtain ⟨es, c₂, h₂, hes, k₂⟩ :=
    run_writeEntries hts hM hf k₁.steady hhas t.mapping.table hgs .delete
  obtain ⟨c₃, h₃, k₃⟩ := run_notify k₂.steady t.mapping .delete
  rw [k₁.rows] at k₂
  refine ⟨es, c₃, ?_, hes, (k₁.trans k₂).still k₃⟩
  rw [recordDeleted, t.not_isLedger]
  simp only [Bool.not_false, if_true]
  rw [run_bind_ok _ h₁, run_bind_ok _ h₂]
  exact h₃

end Act

end RowLedger
