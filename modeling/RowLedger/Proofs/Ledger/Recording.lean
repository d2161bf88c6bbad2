import RowLedger.Proofs.Ledger.Entering

/-! Reading the identifiers of rows, and entering what happened to the rows of a tracked table. -/

namespace RowLedger

/-- Every row has an identifier. -/
def Record.Identified (column : String) (rs : List Record) : Prop :=
  ∀ r ∈ rs, ∃ g : Guid, r column = g.stored

theorem Record.Identified.exists_guids {column : String} {rs : List Record}
    (h : Record.Identified column rs) :
    ∃ gs : List Guid, gs.map Guid.stored = rs.map (· column) := by
  induction rs with
  | nil => exact ⟨[], rfl⟩
  | cons r rs ih =>
    obtain ⟨g, hg⟩ := h r List.mem_cons_self
    obtain ⟨gs, hgs⟩ := ih fun r hr => h r (List.mem_cons_of_mem _ hr)
    exact ⟨g :: gs, by rw [List.map_cons, List.map_cons, hg, hgs]⟩

/-- The identifier that a row has, as it is read. -/
def Record.identifier? (column : String) (r : Record) : Option Guid :=
  (Value.ofSql .guid (r column)).toOption.bind Value.guid?

namespace Act

open Ledger (keptApart)

theorem guidsOf_stored {gs : List Guid} {column : String} {rs : List Record}
    (h : gs.map Guid.stored = rs.map (· column)) :
    guidsOf (rs.map fun r => [r column]) = .ok gs := by
  have hheads : (rs.map fun r => [r column]).filterMap List.head? = gs.map Guid.stored := by
    rw [h, List.filterMap_map, ← List.filterMap_eq_map]
    rfl
  have hread : (gs.map Guid.stored).mapM (Value.ofSql .guid) = .ok (gs.map Value.guid) := by
    rw [List.mapM_map]
    clear h hheads
    induction gs with
    | nil => rfl
    | cons g gs ih =>
      rw [List.mapM_cons, Function.comp, Value.ofSql_guid]
      exact congrArg (· >>= fun vs => Except.ok (Value.guid g :: vs)) ih
  have hguids : (gs.map Value.guid).filterMap Value.guid? = gs := by
    rw [List.filterMap_map]
    exact List.filterMap_some
  rw [guidsOf, hheads, hread]
  exact congrArg Except.ok hguids

/-- The identifiers of some of the rows can be read where all rows have one. -/
theorem exists_guidsOf {column : String} {rows rs : List Record}
    (h : Record.Identified column rows) (hsub : rs ⊆ rows) :
    ∃ gs, guidsOf (rs.map fun r => [r column]) = .ok gs ∧
      gs.map Guid.stored = rs.map (· column) := by
  have hrs : Record.Identified column rs := fun r hr => h r (hsub hr)
  obtain ⟨gs, hgs⟩ := hrs.exists_guids
  exact ⟨gs, guidsOf_stored hgs, hgs⟩

/-- Identifiers that can all be read are those of the rows that have one. -/
theorem guidsOf_eq {column : String} {rs : List Record} {gs : List Guid}
    (h : guidsOf (rs.map fun r => [r column]) = .ok gs) :
    gs = rs.filterMap (Record.identifier? column) := by
  have hheads : (rs.map fun r => [r column]).filterMap List.head? = rs.map (· column) := by
    rw [List.filterMap_map, ← List.filterMap_eq_map]
    rfl
  rw [guidsOf, hheads, List.mapM_map] at h
  obtain ⟨values, hvalues, ⟨⟩⟩ := except_bind_ok.1 h
  have hread := forall₂_of_mapM hvalues
  clear h hheads hvalues
  induction hread with
  | nil => rfl
  | cons hv _ ih =>
    rw [List.filterMap_cons, List.filterMap_cons, ih, Record.identifier?,
      show Value.ofSql .guid _ = _ from hv]
    rfl

variable {σ : Type} {s : Setup σ} {view : σ → Contents} {ts : List Tracked} {c : Connection σ}
  {M : Meaning} {R : Refusals} {known : List Mapping} {m : Mapping}

/-- The rows that fulfil a condition are read for their identifiers, in some order. -/
theorem run_syncGuids_cases (hf : s.Faithful view M R known) (hm : m ∈ known)
    (hhas : (view c.world).tables.Has m.table) (condition : Option Condition) :
    (∃ (rs : List Record) (w : σ), rs.Perm (((view c.world).tables.rows m.table).filter
        (M.selects m.table condition)) ∧
      (syncGuids m condition).run s c =
        (guidsOf (rs.map fun r => [r m.syncColumn.name]), { c with world := w }) ∧
      view w = view c.world) ∨
    ∃ e w, (syncGuids m condition).run s c = (.error (.storage e), { c with world := w }) ∧
      view w = view c.world ∧ R.question (.identifiers m condition) := by
  have hread := hf.selects (w := c.world) condition hm hhas
  rw [syncGuids, run_bind, run_query]
  change Carried _ _ _ _ (s.driver.query (s.config.dialect.render
    ([.word "select ", .name m.syncColumn.name, .word " from ", .name m.table] ++
      TableQuery.whereClause condition)) ((condition.map Condition.params).getD []) c.world)
    at hread
  generalize s.driver.query _ _ _ = reply at hread
  cases hread with
  | @done set w heffect =>
    obtain ⟨hw, rs, hperm, hset⟩ := heffect
    refine .inl ⟨rs, w, hperm, ?_, hw⟩
    rw [← hset]
    rfl
  | refused hno hw => exact .inr ⟨_, _, rfl, hw, hno⟩

/-- The identifiers of the rows that fulfil a condition, in some order. -/
theorem run_syncGuids (hf : s.Faithful view M R (Tracked.mappings ts)) (h : Steady s view ts c)
    {t : Tracked} (ht : t ∈ ts) (condition : Option Condition)
    (hids : Record.Identified t.mapping.syncColumn.name
      ((view c.world).tables.rows t.mapping.table)) :
    (∃ (gs : List Guid) (c' : Connection σ),
      (syncGuids t.mapping condition).run s c = (.ok gs, c') ∧
      (gs.map Guid.stored).Perm
        ((((view c.world).tables.rows t.mapping.table).filter
          (M.selects t.mapping.table condition)).map (· t.mapping.syncColumn.name)) ∧
      Leaves s view ts c c' (view c.world).tables.rows) ∨
    ∃ e c', (syncGuids t.mapping condition).run s c = (.error (.storage e), c') ∧
      Leaves s view ts c c' (view c.world).tables.rows ∧
      R.question (.identifiers t.mapping condition) := by
  rcases run_syncGuids_cases hf (Tracked.mem_mappings (Tracked.mem_known ht)) (h.tables t ht)
    condition with ⟨rs, w, hperm, hrun, hw⟩ | ⟨e, w, hrun, hw, hno⟩
  · obtain ⟨gs, hread, hgs⟩ := exists_guidsOf hids fun _ hr =>
      List.mem_of_mem_filter (hperm.subset hr)
    rw [hread] at hrun
    refine .inl ⟨gs, { c with world := w }, hrun, ?_, .sameView h hw⟩
    rw [hgs]
    exact hperm.map _
  · exact .inr ⟨e, { c with world := w }, hrun, .sameView h hw, hno⟩

/-- The identifier of a row with the key is read, or null where there is none. -/
theorem run_readSync_cases (hf : s.Faithful view M R known) (hm : m ∈ known)
    (hhas : (view c.world).tables.Has m.table) (key : Param) :
    (∃ v w, (readSync m key).run s c =
        ((Value.ofSql .guid v).map Value.guid?, { c with world := w }) ∧
      view w = view c.world ∧
      ((∃ r ∈ (view c.world).tables.rows m.table,
          M.holds m.table (.keyed key) r = true ∧ v = r m.syncColumn.name) ∨
        (∀ r ∈ (view c.world).tables.rows m.table, M.holds m.table (.keyed key) r = false) ∧
          v = .null)) ∨
    ∃ e w, (readSync m key).run s c = (.error (.storage e), { c with world := w }) ∧
      view w = view c.world ∧ R.question (.identifier m key) := by
  have hread := hf.looksUp (w := c.world) key hm hhas
  rw [readSync, run_bind, run_scalar]
  change Carried _ _ _ _ (s.driver.scalar (s.config.dialect.render
    [.word "select ", .name m.syncColumn.name, .word " from ", .name m.table,
      .word " where ", .name key.name, .word " = ", .hole key.name]) [key] c.world) at hread
  generalize s.driver.scalar _ _ _ = reply at hread
  cases hread with
  | @done v w heffect =>
    refine .inl ⟨v, w, ?_, heffect.1, heffect.2⟩
    change (ofExcept (Value.ofSql .guid v) >>= fun v => pure v.guid?).run s
      { c with world := w } = _
    rw [run_bind, run_ofExcept]
    cases Value.ofSql .guid v <;> rfl
  | refused hno hw => exact .inr ⟨_, _, rfl, hw, hno⟩

/-- The identifier of the row with a key, if there is one. -/
theorem run_readSync (hf : s.Faithful view M .main (Tracked.mappings ts)) (h : Steady s view ts c)
    {t : Tracked} (ht : t ∈ ts) (key : Param)
    (hids : Record.Identified t.mapping.syncColumn.name
      ((view c.world).tables.rows t.mapping.table)) :
    ∃ (g : Option Guid) (c' : Connection σ), (readSync t.mapping key).run s c = (.ok g, c') ∧
      Leaves s view ts c c' (view c.world).tables.rows ∧
      match g with
      | some g => ∃ r ∈ (view c.world).tables.rows t.mapping.table,
        M.holds t.mapping.table (.keyed key) r = true ∧ r t.mapping.syncColumn.name = g.stored
      | none => ∀ r ∈ (view c.world).tables.rows t.mapping.table,
        M.holds t.mapping.table (.keyed key) r = false := by
  obtain ⟨v, w, hrun, hw, ⟨r, hr, hkey, rfl⟩ | ⟨hnone, rfl⟩⟩ :=
    (run_readSync_cases hf (Tracked.mem_mappings (Tracked.mem_known ht)) (h.tables t ht)
      key).resolve_right fun ⟨_, _, _, _, hno⟩ => hno
  · obtain ⟨g, hg⟩ := hids r hr
    rw [hg, Value.ofSql_guid] at hrun
    exact ⟨some g, { c with world := w }, hrun, .sameView h hw, r, hr, hkey, hg⟩
  · exact ⟨none, { c with world := w }, hrun, .sameView h hw, hnone⟩

/-- The ledger keeps what it knows of other tables, and one deletion for each row of this one that
has an identifier. It refuses that only for a reason of its own, if all rows have identifiers that
are nobody else's. -/
theorem run_recordDeleteAll_cases (hts : Tracked.Apart ts) (hM : M.Lawful (Tracked.mappings ts))
    (hl : s.Faithful view M R (Tracked.mappings ts)) (hf : s.Faithful view M R known)
    (h : Steady s view ts c) (hm : m ∈ known) (hother : m.table ≠ Ledger.tableName)
    (hhas : (view c.world).tables.Has m.table) :
    (∃ (rs : List Record) (gs : List Guid) (es : List Record) (c' : Connection σ),
      (recordDeleteAll m).run s c = (.ok (), c') ∧
      rs.Perm ((view c.world).tables.rows m.table) ∧
      guidsOf (rs.map fun r => [r m.syncColumn.name]) = .ok gs ∧
      List.Forall₂ (fun g e => e.Enters m.table g .delete) gs es ∧
      Leaves s view ts c c' (Function.update (view c.world).tables.rows Ledger.tableName
        (((view c.world).tables.rows Ledger.tableName).filter
          (fun e => !(e "TableName" == .text m.table)) ++ es))) ∨
    ∃ e c' rows, (recordDeleteAll m).run s c = (.error e, c') ∧ Leaves s view ts c c' rows ∧
      (Record.Identified m.syncColumn.name ((view c.world).tables.rows m.table) →
        (((view c.world).tables.rows m.table).map (· m.syncColumn.name)).Nodup →
        (∀ e ∈ (view c.world).tables.rows Ledger.tableName,
          ∀ r ∈ (view c.world).tables.rows m.table,
            e "SyncGuid" = r m.syncColumn.name → e "TableName" = .text m.table) →
        R.OfLedger ∨ R.question (.identifiers m none)) := by
  rw [recordDeleteAll]
  rcases run_ensureLedger_cases hts hl h with ⟨c₁, h₁, k₁, hledger⟩ | ⟨e, c₁, h₁, k₁, hno⟩
  swap
  · exact .inr ⟨_, c₁, _, run_bind_error _ h₁, k₁, fun _ _ _ => .inl hno⟩
  rw [run_bind_ok _ h₁]
  rcases run_removeEntries_cases hts hl k₁.steady hledger
    (Ledger.compile_ofTable m.table s.config.dialect) with ⟨n, c₂, h₂, k₂⟩ | ⟨e, c₂, h₂, k₂, hno⟩
  swap
  · exact .inr ⟨_, c₂, _, run_bind_error _ h₂, k₁.trans k₂, fun _ _ _ => .inl hno⟩
  rw [run_bind_ok _ h₂]
  have hpurged : (((view c.world).tables.rows Ledger.tableName).filter fun e =>
        !M.holds Ledger.tableName (.equal "TableName" ⟨"TableName", .text m.table⟩) e) =
      ((view c.world).tables.rows Ledger.tableName).filter
        fun e => !(e "TableName" == .text m.table) := by
    refine List.filter_congr fun e _ => ?_
    rw [hM.entry m.table e (by simp)]
  rw [k₁.rows, hpurged] at k₂
  have k := k₁.trans k₂
  have hrows : ((view c₂.world).tables.rows m.table).filter (M.selects m.table none) =
      (view c.world).tables.rows m.table := by
    rw [k.rows, Function.update_of_ne hother]
    exact List.filter_eq_self.2 fun _ _ => rfl
  rcases run_syncGuids_cases hf hm (k.has hother hhas) none with
    ⟨rs, w, hperm, h₃, hw⟩ | ⟨e, w, h₃, hw, hno⟩
  swap
  · exact .inr ⟨_, _, _, run_bind_error _ h₃, k.still (.sameView k.steady hw),
      fun _ _ _ => .inr hno⟩
  rw [hrows] at hperm
  have k₃ := k.still (.sameView k.steady hw)
  cases hgs : guidsOf (rs.map fun r => [r m.syncColumn.name]) with
  | error e =>
    rw [hgs] at h₃
    refine .inr ⟨e, _, _, run_bind_error _ h₃, k₃, fun hids _ _ => ?_⟩
    obtain ⟨gs, hread, -⟩ := exists_guidsOf hids hperm.subset
    cases hgs.symm.trans hread
  | ok gs =>
    rw [hgs] at h₃
    rw [run_bind_ok _ h₃]
    have hthere := (Leaves.sameView k.steady hw).ledger (k₂.ledger hledger)
    rcases run_addEntries_cases hts hl k₃.steady hthere m.table gs .delete with
      ⟨es, c₄, h₄, hes, k₄⟩ | ⟨e, c₄, rows, h₄, k₄, hno⟩
    · rw [k₃.rows, Function.update_self, Function.update_idem] at k₄
      exact .inl ⟨rs, gs, es, c₄, h₄, hperm, hgs, hes, k₃.trans k₄⟩
    · refine .inr ⟨_, c₄, rows, h₄, k₃.trans k₄, fun hids hnodup howned => .inl ?_⟩
      obtain ⟨_, hread, hstored⟩ := exists_guidsOf hids hperm.subset
      cases hgs.symm.trans hread
      have hguids := hperm.map (fun r : Record => r m.syncColumn.name)
      rw [← hstored] at hguids
      refine hno (List.Nodup.of_map _ (hguids.nodup_iff.2 hnodup)) fun e he g hg heq => ?_
      -- what the purge has left is about other tables
      rw [k₃.rows, Function.update_self] at he
      obtain ⟨he, habout⟩ := List.mem_filter.1 he
      obtain ⟨r, hr, hrg⟩ := List.mem_map.1 (hguids.subset (List.mem_map_of_mem hg))
      simp [howned e he r hr (heq.trans hrg.symm)] at habout

/-- The ledger keeps what it knows of other tables, and one deletion for each row of this one. -/
theorem run_recordDeleteAll (hts : Tracked.Apart ts) (hM : M.Lawful (Tracked.mappings ts))
    (hf : s.Faithful view M .main (Tracked.mappings ts)) (h : Steady s view ts c) {t : Tracked}
    (ht : t ∈ ts)
    (hids : Record.Identified t.mapping.syncColumn.name
      ((view c.world).tables.rows t.mapping.table))
    (hnodup : (((view c.world).tables.rows t.mapping.table).map
      (· t.mapping.syncColumn.name)).Nodup)
    (howned : ∀ e ∈ (view c.world).tables.rows Ledger.tableName,
      ∀ r ∈ (view c.world).tables.rows t.mapping.table,
        e "SyncGuid" = r t.mapping.syncColumn.name → e "TableName" = .text t.mapping.table) :
    ∃ (gs : List Guid) (es : List Record) (c' : Connection σ),
      (recordDeleteAll t.mapping).run s c = (.ok (), c') ∧
      (gs.map Guid.stored).Perm
        (((view c.world).tables.rows t.mapping.table).map (· t.mapping.syncColumn.name)) ∧
      List.Forall₂ (fun g e => e.Enters t.mapping.table g .delete) gs es ∧
      Leaves s view ts c c' (Function.update (view c.world).tables.rows Ledger.tableName
        (((view c.world).tables.rows Ledger.tableName).filter
          (fun e => !(e "TableName" == .text t.mapping.table)) ++ es)) := by
  have hmem : t.mapping ∈ Tracked.mappings ts := Tracked.mem_mappings (Tracked.mem_known ht)
  rcases run_recordDeleteAll_cases hts hM hf hf h hmem t.table_ne (h.tables t ht) with
    ⟨rs, gs, es, c', hrun, hperm, hgs, hes, k⟩ | ⟨e, c', rows, -, -, hno⟩
  · obtain ⟨_, hread, hstored⟩ := exists_guidsOf hids hperm.subset
    cases hgs.symm.trans hread
    exact ⟨gs, es, c', hrun, hstored ▸ hperm.map _, hes, k⟩
  · rcases hno hids hnodup howned with hno | hno
    · exact absurd hno Refusals.not_ofLedger_main
    · exact absurd hno id

end Act

end RowLedger
