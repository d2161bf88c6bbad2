import RowLedger.Proofs.Ledger.Enrolled

/-!
An insert that replaces a row is entered under the identifier of the new row. What was entered of
the rows that it replaced stays.
-/

namespace RowLedger

variable {σ : Type} {s : Setup σ} {view : σ → Contents} {M : Meaning} {R : Refusals} {m : Mapping}

/-- Where no key is counted up, none is read back. -/
theorem Mapping.withGeneratedKey_of_none (h : m.autoKey = none) (e : Entity)
    (id : Option (Sized .i64)) : m.withGeneratedKey e id = .ok e := by
  have hnone : m.autoKeyColumn? = none := by
    rw [Mapping.autoKeyColumn?, h]
    rfl
  simp [withGeneratedKey, hnone]

/-- There is a primary key, and a row has the bound values in all of its columns. -/
def Mapping.SameKey (m : Mapping) (M : Meaning) (params : List Param) (r : Record) : Prop :=
  m.key ≠ none ∧ ∀ c ∈ m.columns, c.primaryKey = true → ∀ p ∈ params, p.name = c.name →
    M.same m.table c.name (r c.name) p.value = true

/-- A driver on which a replacement removes the rows with the same key, and maybe others that stand
in the way, and then inserts. -/
structure Setup.Replaces (s : Setup σ) (view : σ → Contents) (M : Meaning) (m : Mapping) :
    Prop where
  replaces {w : σ} {params : List Param} : (view w).tables.Has m.table →
    params.map Param.name = (m.columnsAt m.replaceColumns).map Column.name →
      Carried view w
        (fun (r : ExecResult) c => 0 < r.rowsAffected ∧ ∃ (kept : List Record) (row : Record),
          kept.Sublist ((view w).tables.rows m.table) ∧ (∀ r ∈ kept, ¬m.SameKey M params r) ∧
          (∀ p ∈ params, row p.name = p.value) ∧
          c = (view w).withRows m.table (kept ++ [row]))
        True
        (s.driver.execute (s.config.dialect.render
          (s.config.dialect.insert m m.replaceColumns .replace)) params w)

namespace Ledger

/-- An entry says that a row of the table was inserted or updated. -/
def Current (table : String) (e : Record) : Prop :=
  e "TableName" = .text table ∧
    (Action.insert.toValue.toSql = .ok (e "Action") ∨
      Action.update.toValue.toSql = .ok (e "Action"))

instance (table : String) (e : Record) : Decidable (Current table e) :=
  inferInstanceAs (Decidable (_ ∧ (_ ∨ _)))

/-- What was inserted or updated last is there. -/
def Live (m : Mapping) (rows : String → List Record) : Prop :=
  ∀ e ∈ rows tableName, Current m.table e → e "SyncGuid" ∈ m.ids rows

instance (m : Mapping) (rows : String → List Record) : Decidable (Live m rows) :=
  inferInstanceAs (Decidable (∀ e ∈ rows tableName, _ → _))

/-- The ledger after an insert, beside the rows after it. -/
theorem live_entered_iff {rows rows' : String → List Record} {g : Guid} {entry : Record}
    (henters : entry.Enters m.table g .insert)
    (hledger : rows' tableName = keptApart [g] (rows tableName) ++ [entry])
    (hnew : g.stored ∈ m.ids rows') :
    Live m rows' ↔ ∀ e ∈ rows tableName, Current m.table e → e "SyncGuid" ∈ m.ids rows' := by
  constructor
  · intro hlive' e he hcurrent
    by_cases hg : e "SyncGuid" = g.stored
    · rw [hg]
      exact hnew
    · have hkept : e ∈ keptApart [g] (rows tableName) := mem_keptApart.2 ⟨he, by simpa using hg⟩
      refine hlive' e ?_ hcurrent
      rw [hledger]
      exact List.mem_append_left _ hkept
  · intro hold e he hcurrent
    rw [hledger] at he
    rcases List.mem_append.1 he with he | he
    · exact hold e (mem_keptApart.1 he).1 hcurrent
    · rw [List.mem_singleton.1 he, henters.row]
      exact hnew

/-- A replacement that succeeds: the row is there under the identifier drawn next, rows with its key
are gone, and the row is entered as inserted. -/
theorem run_replace {e e' : Entity} {n : Nat} {c c' : Connection σ}
    (hM : M.Lawful [mapping]) (hf : s.Faithful view M R [mapping]) (hr : s.Replaces view M m)
    (h : Enrolled s view e.type m c) (hauto : m.autoKey = none)
    (hrun : (Act.insert e .replace).run s c = (.ok (e', .ok n), c')) :
    ∃ (params : List Param) (kept : List Record) (row entry : Record),
      m.replaceColumns.mapM (fun i => m.param i (m.bound e' (s.guid c.guidsDrawn) i)) =
        .ok params ∧
      kept.Sublist ((view c.world).tables.rows m.table) ∧ (∀ r ∈ kept, ¬m.SameKey M params r) ∧
      row m.syncColumn.name = (s.guid c.guidsDrawn).stored ∧
      entry.Enters m.table (s.guid c.guidsDrawn) .insert ∧
      (view c'.world).tables.rows =
        Function.update (Function.update (view c.world).tables.rows m.table (kept ++ [row]))
          tableName
          (keptApart [s.guid c.guidsDrawn] ((view c.world).tables.rows tableName) ++ [entry]) := by
  rcases h.of_run_insert hrun with ⟨⟨_, hfail⟩, -⟩ |
    ⟨c₁, e₁, params, hw₁, hs₁, hparams, hnames, hsettle⟩
  · cases hfail
  · have hsettle : Enrolled.settle s m e₁ (s.guid c.guidsDrawn)
        (s.config.dialect.insert m m.replaceColumns .replace) params c₁ = ((e', .ok n), c') :=
      hsettle
    have hpresent : (view c₁.world).tables.Has m.table := by
      rw [hw₁]
      exact h.present
    have hexec := Act.run_exec (s := s) (c := c₁)
      (s.config.dialect.insert m m.replaceColumns .replace) params
    have hcarried := hr.replaces hpresent hnames
    generalize s.driver.execute _ params c₁.world = reply at hcarried hexec
    cases hcarried with
    | @refused err w _ hw =>
      rw [Enrolled.settle_error hexec] at hsettle
      cases hsettle
    | @done r w heffect =>
      obtain ⟨hpos, kept, row, hsub, hgone, hrow, hw⟩ := heffect
      have k₂ := Leaves.withRows hs₁ hw
      obtain ⟨e₂, entry, c₃, hdone, hkey, henters, k₃⟩ | ⟨e₂, err, c₃, hfail, -⟩ :=
        Enrolled.settle_cases hM hf h.table_ne hexec k₂.steady (Nat.pos_iff_ne_zero.1 hpos)
      · obtain ⟨hfst, rfl⟩ := Prod.mk.inj (hdone.symm.trans hsettle)
        obtain ⟨rfl, -⟩ := Prod.mk.inj hfst
        obtain rfl : e₂ = e₁ := by
          rw [Mapping.withGeneratedKey_of_none hauto] at hkey
          exact (Except.ok.inj hkey).symm
        have hid := h.wellFormed.row_sync h.wellFormed.sync_mem_replaceColumns hparams hrow
        refine ⟨params, kept, row, entry, hparams, ?_, hgone, hid, henters, ?_⟩
        · rw [← hw₁]
          exact hsub
        · rw [(k₂.trans k₃).rows, k₂.rows, Function.update_of_ne h.table_ne.symm, hw₁]
      · cases hfail.symm.trans hsettle

/-- After a replacement what was inserted or updated last is there exactly if no entry was about a
row that it replaced; and every row with the same key was replaced. -/
theorem live_replace_iff {e e' : Entity} {n : Nat} {c c' : Connection σ}
    (hM : M.Lawful [mapping]) (hf : s.Faithful view M R [mapping]) (hr : s.Replaces view M m)
    (h : Enrolled s view e.type m c) (hauto : m.autoKey = none)
    (hrun : (Act.insert e .replace).run s c = (.ok (e', .ok n), c')) :
    (Live m (view c'.world).tables.rows ↔
      ∀ x ∈ (view c.world).tables.rows tableName, Current m.table x →
        x "SyncGuid" ∈ m.ids (view c'.world).tables.rows) ∧
    ∃ params, m.replaceColumns.mapM
        (fun i => m.param i (m.bound e' (s.guid c.guidsDrawn) i)) = .ok params ∧
      ((m.ids (view c.world).tables.rows).Nodup →
        (s.guid c.guidsDrawn).stored ∉ m.ids (view c.world).tables.rows →
          ∀ r ∈ (view c.world).tables.rows m.table, m.SameKey M params r →
            r m.syncColumn.name ∉ m.ids (view c'.world).tables.rows) := by
  obtain ⟨params, kept, row, entry, hparams, hsub, hgone, hrow, henters, hrows⟩ :=
    run_replace hM hf hr h hauto hrun
  have hids : m.ids (view c'.world).tables.rows =
      kept.map (· m.syncColumn.name) ++ [(s.guid c.guidsDrawn).stored] := by
    rw [Mapping.ids, hrows, Function.update_of_ne h.table_ne, Function.update_self,
      List.map_append, List.map_singleton, hrow]
  refine ⟨live_entered_iff henters ?_ ?_, params, hparams, ?_⟩
  · rw [hrows, Function.update_self]
  · rw [hids]
    exact List.mem_append_right _ (List.mem_singleton_self _)
  · intro hdistinct hfresh r hmem hkey hid
    rw [hids] at hid
    rcases List.mem_append.1 hid with hid | hid
    · obtain ⟨r', hr', heq⟩ := List.mem_map.1 hid
      have hsame : r' = r := List.inj_on_of_nodup_map hdistinct (hsub.subset hr') hmem heq
      rw [hsame] at hr'
      exact hgone r hr' hkey
    · rw [← List.mem_singleton.1 hid] at hfresh
      exact hfresh (List.mem_map_of_mem hmem)

end Ledger

/-! Settings that are replaced. -/

namespace Memory

instance (m : Mapping) (M : Meaning) (params : List Param) (r : Record) :
    Decidable (m.SameKey M params r) :=
  inferInstanceAs (Decidable (_ ∧ ∀ c ∈ m.columns, _ → ∀ p ∈ params, _ → _))

/-- The contents after a replacement. -/
def replaced (m : Mapping) (params : List Param) (c : Contents) : Contents :=
  c.withRows m.table (((c.tables.rows m.table).filter fun r => ¬m.SameKey meaning params r) ++
    [Record.assign (fun _ => .null) params])

def replaceText (m : Mapping) : String :=
  Dialect.sqlite.render (Dialect.sqlite.insert m m.replaceColumns .replace)

/-- Carries out a replacement too, unless rows that are left are in the way. -/
@[irreducible] def replace (ms : List Mapping) (m : Mapping) (sql : String) (params : List Param)
    (w : Store ms) : Reply (Store ms) ExecResult :=
  if sql = replaceText m then
    if h : Consistent ms (replaced m params w.1) then
      (.ok { rowsAffected := 1 }, ⟨replaced m params w.1, h⟩)
    else (.error clash, w)
  else execute ms sql params w

theorem replace_of_ne {ms : List Mapping} {m : Mapping} {sql : String} (h : sql ≠ replaceText m)
    (params : List Param) (w : Store ms) :
    replace ms m sql params w = execute ms sql params w := by
  rw [replace, if_neg h]

def replacing (ms : List Mapping) (m : Mapping) (guid : Nat → Guid) : Setup (Store ms) :=
  (setup ms guid).executing (replace ms m)

theorem replaces {ms : List Mapping} {m : Mapping} (guid : Nat → Guid)
    (hnames : ((m.columnsAt m.replaceColumns).map Column.name).Nodup) :
    (replacing ms m guid).Replaces Subtype.val meaning m where
  replaces {w params} _ hparams := by
    have hdone : Carried Subtype.val w
        (fun (r : ExecResult) c => 0 < r.rowsAffected ∧ ∃ (kept : List Record) (row : Record),
          kept.Sublist (w.1.tables.rows m.table) ∧ (∀ r ∈ kept, ¬m.SameKey meaning params r) ∧
          (∀ p ∈ params, row p.name = p.value) ∧
          c = w.1.withRows m.table (kept ++ [row]))
        True (replace ms m (replaceText m) params w) := by
      rw [replace, if_pos rfl]
      split
      · refine .done ⟨Nat.one_pos, _, _, List.filter_sublist, ?_, ?_, rfl⟩
        · intro r hr
          exact of_decide_eq_true (List.mem_filter.1 hr).2
        · intro p hp
          exact assign_of_mem (hparams ▸ hnames) hp _
      · exact .refused trivial rfl
    exact hdone

theorem replacing_faithful {ts : List Tracked} {m : Mapping}
    (hapart : (verbs (Tracked.mappings ts)).Pairwise Verb.Apart)
    (hunread : read? (Tracked.mappings ts) (replaceText m) = none) (guid : Nat → Guid) :
    (replacing (ts.map Tracked.mapping) m guid).Faithful Subtype.val meaning .main
      (Tracked.mappings ts) := by
  refine (faithful hapart guid).executing fun w cmd hcmd hfits => ?_
  obtain ⟨rest, htext, -⟩ := exists_rest cmd
  have hread := read?_eq hapart (Verb.of_mem_verbs hcmd) htext
  have hne : Dialect.sqlite.render (cmd.sql .sqlite) ≠ replaceText m := by
    intro heq
    rw [heq, hunread] at hread
    cases hread
  have hcarried := execute_carried hapart cmd hcmd hfits
  rw [← replace_of_ne hne] at hcarried
  exact hcarried

end Memory

def Samples.replacingSetup : Setup (Memory.Store [Samples.settings.mapping]) :=
  Memory.replacing [Samples.settings.mapping] Samples.settings.mapping Samples.settingSetup.guid

theorem Samples.replacingSetup_faithful :
    Samples.replacingSetup.Faithful Subtype.val Memory.meaning .main [Ledger.mapping] :=
  Setup.Faithful.ledger (m := Samples.settings.mapping)
    (Memory.replacing_faithful Samples.settings_verbs (by decide +kernel) _)

/-- The same setting is inserted again with another value. -/
def Samples.replacedTheme :
    Except Error Act.Written × Connection (Memory.Store [Samples.settings.mapping]) :=
  (Act.insert (Samples.settingOf "theme" "light") .replace).run Samples.replacingSetup
    { world := Samples.themeStore, guidsDrawn := 1 }

/-- A setting that is replaced leaves the entry of its insert behind. -/
theorem Samples.replacedTheme_not_live :
    Ledger.Live Samples.settings.mapping Samples.themeStore.1.tables.rows ∧
    Samples.replacedTheme.1 = .ok (Samples.settingOf "theme" "light", .ok 1) ∧
    ¬Ledger.Live Samples.settings.mapping Samples.replacedTheme.2.world.1.tables.rows := by
  have hdone : Samples.replacedTheme.1 = .ok (Samples.settingOf "theme" "light", .ok 1) := by
    decide +kernel
  refine ⟨by decide +kernel, hdone, fun hlive => ?_⟩
  have hrun : Samples.replacedTheme =
      (.ok (Samples.settingOf "theme" "light", .ok 1), Samples.replacedTheme.2) :=
    Prod.fst_eq_iff.1 hdone
  obtain ⟨hiff, params, hparams, hgone⟩ := Ledger.live_replace_iff (Memory.lawful _)
    Samples.replacingSetup_faithful (Memory.replaces _ (by decide +kernel))
    (Samples.themeStore_enrolled _ 1) rfl hrun
  have hbound : Samples.settings.mapping.replaceColumns.mapM (fun i =>
      Samples.settings.mapping.param i (Samples.settings.mapping.bound
        (Samples.settingOf "theme" "light") (Samples.replacingSetup.guid 1) i)) =
      .ok [⟨"Name", .text "theme"⟩, ⟨"Value", .text "light"⟩,
        ⟨"SyncGuid", (Samples.replacingSetup.guid 1).stored⟩] := by
    decide +kernel
  obtain rfl := Except.ok.inj (hparams.symm.trans hbound)
  obtain ⟨r, hr, hkey, x, hx, hcurrent, hrow⟩ :
      ∃ r ∈ Samples.themeStore.1.tables.rows Samples.settings.mapping.table,
        Samples.settings.mapping.SameKey Memory.meaning
          [⟨"Name", .text "theme"⟩, ⟨"Value", .text "light"⟩,
            ⟨"SyncGuid", (Samples.replacingSetup.guid 1).stored⟩] r ∧
        ∃ x ∈ Samples.themeStore.1.tables.rows Ledger.tableName,
          Ledger.Current Samples.settings.mapping.table x ∧ x "SyncGuid" = r "SyncGuid" := by
    decide +kernel
  refine hgone (by decide +kernel) (by decide +kernel) r hr hkey ?_
  have hstill := hiff.1 hlive x hx hcurrent
  rw [hrow] at hstill
  exact hstill

end RowLedger
