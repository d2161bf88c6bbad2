import Mathlib.Data.Prod.Basic
import RowLedger.Connection.Definition
import RowLedger.Proofs.Connection.Run
import RowLedger.Proofs.Ledger.Runs
import RowLedger.Proofs.Schema.Catalog

/-!
Calls that create a table which is there already. Some fail, at any of their statements, before one
succeeds.
-/

namespace RowLedger

/-- A database that lists the columns of a table as they are, and in which a statement that fails
has no effect. -/
structure Setup.Migrates {σ : Type} (s : Setup σ) (view : σ → Catalog) (m : Mapping) : Prop where
  alters {w w' : σ} {r : ExecResult} {a : Alteration} : a ∈ m.alterations →
    s.driver.execute (s.config.dialect.render (a.sql s.config.dialect m.table)) [] w = (.ok r, w') →
      (view w).Allows a ∧ view w' = (view w).alter a
  refuses {w w' : σ} {e : StorageError} {a : Alteration} : a ∈ m.alterations →
    s.driver.execute (s.config.dialect.render (a.sql s.config.dialect m.table)) [] w =
      (.error e, w') → view w' = view w
  lists {w w' : σ} {set : ResultSet} :
    s.driver.query (s.config.dialect.render (s.config.dialect.tableInfo m.table)) [] w =
      (.ok set, w') →
        view w' = view w ∧ (Act.columnInfos set).map ColumnInfo.name = (view w).columns
  listsNot {w w' : σ} {e : StorageError} :
    s.driver.query (s.config.dialect.render (s.config.dialect.tableInfo m.table)) [] w =
      (.error e, w') → view w' = view w

namespace Act

variable {σ α β : Type} {s : Setup σ} {view : σ → Catalog} {m : Mapping} {c c' : Connection σ}
  {C : Catalog} {as bs : List Alteration}

/-- What an action leaves of a catalog that is to be altered: all is done, or it fails and the first
of the alterations are done. -/
inductive Alters (view : σ → Catalog) (C : Catalog) (as : List Alteration) :
    Except Error α × Connection σ → Prop
  | done {a : α} {c : Connection σ} (hadmits : C.Admits as) (hview : view c.world = C.after as) :
      Alters view C as (.ok a, c)
  | stopped {e : Error} {c : Connection σ} {done : List Alteration} (hdone : done <+: as)
      (hview : view c.world = C.after done) : Alters view C as (.error e, c)

namespace Alters

theorem pure (a : α) : Alters view (view c.world) [] ((Pure.pure a : Act σ α).run s c) :=
  .done trivial rfl

/-- An action after another one alters what this one leaves. -/
theorem bind {x : Act σ α} {f : α → Act σ β} (hx : Alters view C as (x.run s c))
    (hf : ∀ a c, Alters view (view c.world) bs ((f a).run s c)) :
    Alters view C (as ++ bs) ((x >>= f).run s c) := by
  rw [run_bind]
  generalize x.run s c = reply at hx
  cases hx with
  | stopped hdone hview => exact .stopped (hdone.trans (List.prefix_append _ _)) hview
  | @done a c₁ hadmits hview =>
    dsimp only
    -- a prefix of what follows is one of the whole behind what is done
    have hrest := hf a c₁
    generalize (f a).run s c₁ = reply at hrest
    rw [hview] at hrest
    cases hrest with
    | done hadmits' hview' =>
      exact .done (Catalog.admits_append.2 ⟨hadmits, hadmits'⟩)
        (hview'.trans (Catalog.after_append _ _ _).symm)
    | stopped hdone hview' =>
      exact .stopped ((List.prefix_append_right_inj as).2 hdone)
        (hview'.trans (Catalog.after_append _ _ _).symm)

theorem forM {ι : Type} {xs : List ι} {f : ι → Act σ Unit} {g : ι → List Alteration}
    (h : ∀ x ∈ xs, ∀ c, Alters view (view c.world) (g x) ((f x).run s c)) (c : Connection σ) :
    Alters view (view c.world) (xs.flatMap g) ((xs.forM f).run s c) := by
  induction xs generalizing c with
  | nil => exact pure ()
  | cons x xs ih =>
    exact bind (h x List.mem_cons_self c) fun _ => ih fun y hy => h y (List.mem_cons_of_mem _ hy)

theorem issue (hs : s.Migrates view m) {a : Alteration} (ha : a ∈ m.alterations)
    (c : Connection σ) :
    Alters view (view c.world) [a] ((Act.issue (a.sql s.config.dialect m.table)).run s c) := by
  rw [Act.issue, run_bind, run_exec]
  rcases hexec : s.driver.execute (s.config.dialect.render (a.sql s.config.dialect m.table)) []
    c.world with ⟨e | r, w⟩
  · exact .stopped List.nil_prefix (hs.refuses ha hexec)
  · obtain ⟨hallows, hview⟩ := hs.alters ha hexec
    exact .done ⟨hallows, trivial⟩ hview

/-- A column is added with its index. -/
theorem addColumn (hs : s.Migrates view m) {col : Column} (hcol : col ∈ m.columns)
    (c : Connection σ) :
    Alters view (view c.world) (m.adding col) ((Act.addColumn m col).run s c) := by
  have hmem : ∀ a ∈ m.adding col, a ∈ m.alterations := fun a ha =>
    List.mem_append_left _ (List.mem_flatMap.2 ⟨col, hcol, ha⟩)
  rw [Act.addColumn, run_bind_ok _ run_dialect]
  have hcolumn := issue hs (hmem _ List.mem_cons_self) c
  refine bind hcolumn fun _ c => ?_
  rw [Mapping.adding] at hmem
  cases hunique : col.isUnique with
  | false => exact pure ()
  | true =>
    rw [hunique] at hmem
    exact issue hs (hmem _ (List.mem_cons_of_mem _ List.mem_cons_self)) c

end Alters

/-- The columns are listed, or nothing happens. -/
theorem run_tableInfo (hs : s.Migrates view m) (c : Connection σ) :
    (∃ infos w, (tableInfo m.table).run s c = (.ok infos, { c with world := w }) ∧
      view w = view c.world ∧ infos.map ColumnInfo.name = (view c.world).columns) ∨
    ∃ e w, (tableInfo m.table).run s c = (.error e, { c with world := w }) ∧
      view w = view c.world := by
  rw [tableInfo, run_bind_ok _ run_dialect, run_bind, run_query]
  rcases hquery : s.driver.query
    (s.config.dialect.render (s.config.dialect.tableInfo m.table)) [] c.world with ⟨e | set, w⟩
  · exact .inr ⟨_, w, rfl, hs.listsNot hquery⟩
  · obtain ⟨hview, hnames⟩ := hs.lists hquery
    exact .inl ⟨_, w, rfl, hview, hnames⟩

theorem missingColumns_eq_lacking {infos : List ColumnInfo}
    (h : infos.map ColumnInfo.name = C.columns) : missingColumns m infos = m.lacking C := by
  refine List.filter_congr fun col _ => ?_
  rw [Catalog.has, ← h, List.any_map]
  rfl

/-- The declared indexes are made, if they can be told. -/
theorem Alters.createIndexes (hs : s.Migrates view m) (o : TableOutcome) (c : Connection σ) :
    Alters view (view c.world) (m.declared.map .index)
      ((do
        (← ofExcept m.indexes).forM fun i => Act.issue (s.config.dialect.createIndex i)
        return o : Act σ TableOutcome).run s c) := by
  cases hindexes : m.indexes with
  | error e => exact .stopped List.nil_prefix rfl
  | ok is =>
    have hdeclared : m.declared = is := by
      rw [Mapping.declared, hindexes]
      rfl
    have hmem : ∀ i ∈ is, .index i ∈ m.alterations := fun i hi =>
      List.mem_append_right _ (List.mem_map_of_mem (hdeclared.symm ▸ hi))
    have hloop : Alters view (view c.world) (is.flatMap fun i => [.index i])
        ((is.forM fun i => Act.issue (s.config.dialect.createIndex i)).run s c) :=
      forM (fun i hi c => issue hs (hmem i hi) c) c
    rw [hdeclared, ← List.append_nil (is.map _), List.map_eq_flatMap,
      run_bind_ok _ (run_ofExcept (.ok is))]
    exact bind hloop fun _ _ => pure o

/-- A table that is there is migrated, or the migration stops on the way. -/
theorem run_createTable (hs : s.Migrates view m) (htable : (view c.world).columns ≠ []) :
    Alters view (view c.world) (m.migration (view c.world)) ((createTable m).run s c) := by
  rw [createTable, run_bind_ok _ run_dialect]
  rcases run_tableInfo hs c with ⟨infos, w, hrun, hview, hnames⟩ | ⟨e, w, hrun, hview⟩
  · have hsome : infos.isEmpty = false := by
      cases infos with
      | nil => exact absurd hnames.symm htable
      | cons => rfl
    rw [run_bind_ok _ hrun, hsome, missingColumns_eq_lacking hnames]
    have hlacking : ∀ col ∈ m.lacking (view c.world), col ∈ m.columns :=
      fun _ hcol => (List.mem_filter.1 hcol).1
    have hcolumns := Alters.forM (fun col hcol c => Alters.addColumn hs (hlacking col hcol) c)
      { c with world := w }
    have hall := Alters.bind hcolumns fun _ c => Alters.createIndexes hs .migrated c
    rw [← hview] at hall ⊢
    exact hall
  · rw [run_bind_error _ hrun]
    exact .stopped List.nil_prefix hview

/-- Calls that failed, one after the other. What happens between them leaves the catalog alone. -/
inductive Attempts (s : Setup σ) (view : σ → Catalog) (m : Mapping) :
    Connection σ → Connection σ → Prop
  | start {c c' : Connection σ} (hview : view c'.world = view c.world) : Attempts s view m c c'
  | failed {c c₁ c₂ c' : Connection σ} {e : Error} (h : Attempts s view m c c₁)
      (hrun : (createTable m).run s c₁ = (.error e, c₂)) (hview : view c'.world = view c₂.world) :
      Attempts s view m c c'

/-- They have added some of the columns that the table lacks. -/
theorem Attempts.part (h : Attempts s view m c c') (hs : s.Migrates view m)
    (htable : (view c.world).columns ≠ [])
    (hapart : (m.lacking (view c.world)).Pairwise Column.Apart) :
    ∃ before rest made, m.Part (view c.world) (view c'.world) before rest made := by
  induction h with
  | start hview =>
    rw [hview]
    exact ⟨_, _, _, .start _⟩
  | failed _ hrun hview ih =>
    -- the table that a failed call leaves is still there, with its columns first
    obtain ⟨before, rest, made, hpart⟩ := ih
    have htable₁ := hpart.columns ▸ List.append_ne_nil_of_left_ne_nil htable _
    have halters := run_createTable hs htable₁
    rw [hrun] at halters
    obtain _ | ⟨hdone, hview₂⟩ := halters
    rw [hview, hview₂]
    exact hpart.interrupted hapart hdone

/-- A call that succeeds has migrated the table. -/
theorem view_createTable {o : TableOutcome} (hs : s.Migrates view m)
    (htable : (view c.world).columns ≠ []) (hrun : (createTable m).run s c = (.ok o, c')) :
    (view c.world).Admits (m.migration (view c.world)) ∧
      view c'.world = m.migrate (view c.world) := by
  have halters := run_createTable hs htable
  rw [hrun] at halters
  obtain ⟨hadmits, hview⟩ := halters
  exact ⟨hadmits, hview⟩

/-- Calls fail on a table that is there, at any of their statements, and then one succeeds. The
columns are those that an uninterrupted call leaves. So are the unique indexes, unless a call has
failed at the index of a column that it had added: the next ones find the column and make no index.
It is there in the end only if the mapping declares it once more, ahead of others of its name. -/
theorem createTable_converges_iff {d d' : Connection σ} {c₁ : Connection σ} {o o' : TableOutcome}
    (hs : s.Migrates view m) (htable : (view c.world).columns ≠ [])
    (hattempts : Attempts s view m c c₁) (hlast : (createTable m).run s c₁ = (.ok o, c'))
    (hstart : view d.world = view c.world) (honce : (createTable m).run s d = (.ok o', d')) :
    (view c'.world).columns = (view d'.world).columns ∧
    ((view c'.world).SameUnique (view d'.world) ↔
      ∀ col, m.Strands (view c.world) (view c₁.world) col →
        Index.named? m.declared (m.ownIndex col).name = some (m.ownIndex col)) := by
  obtain ⟨hadmits, hmigrated⟩ := view_createTable hs (hstart ▸ htable) honce
  rw [hstart] at hadmits hmigrated
  have hapart := Mapping.apart_lacking hadmits
  obtain ⟨before, rest, made, hpart⟩ := hattempts.part hs htable hapart
  have htable₁ := hpart.columns ▸ List.append_ne_nil_of_left_ne_nil htable _
  rw [(view_createTable hs htable₁ hlast).2, hmigrated]
  exact ⟨hpart.columns_migrate hapart, hpart.sameUnique_iff hapart⟩

end Act

/-! Locked settings. -/

instance (C : Catalog) (a : Alteration) : Decidable (C.Allows a) :=
  match a with
  | .column c => inferInstanceAs (Decidable (C.has c.name = false))
  | .index _ => .isTrue trivial

namespace Migrator

/-- A catalog, and the statements that are refused. -/
abbrev World := Catalog × List String

def text (m : Mapping) (a : Alteration) : String := Dialect.sqlite.render (a.sql .sqlite m.table)

def execute (m : Mapping) (sql : String) (_ : List Param) (w : World) : Reply World ExecResult :=
  if sql ∈ w.2 then (.error ⟨.busy, "database is locked"⟩, w)
  else match m.alterations.find? fun a => text m a == sql with
    | none => (.error ⟨.error, "syntax error"⟩, w)
    | some a =>
      if w.1.Allows a then (.ok {}, (w.1.alter a, w.2))
      else (.error ⟨.error, "duplicate column name"⟩, w)

def query (_ : String) (_ : List Param) (w : World) : Reply World ResultSet :=
  (.ok ⟨[⟨"name", .text⟩], w.1.columns.map fun n => [.text n]⟩, w)

def setup (m : Mapping) : Setup World where
  driver := .buffered (execute m) query (fun _ => true) fun w => (.ok (), w)
  config := .sqlite ":memory:"
  guid n := ⟨BitVec.ofNat 128 (n + 1)⟩
  savepointNumber n := n

theorem execute_text {m : Mapping} (hnodup : (m.alterations.map (text m)).Nodup) {a : Alteration}
    (ha : a ∈ m.alterations) (w : World) :
    execute m (text m a) [] w = (.ok {}, (w.1.alter a, w.2)) ∧ w.1.Allows a ∨
    ∃ e, execute m (text m a) [] w = (.error e, w) := by
  have hfind : m.alterations.find? (fun b => text m b == text m a) = some a :=
    find?_eq_of_unique ha (beq_self_eq_true _) fun b hb htext =>
      List.inj_on_of_nodup_map hnodup hb ha (beq_iff_eq.1 htext)
  unfold execute
  rw [hfind]
  split
  · exact .inr ⟨_, rfl⟩
  · dsimp only
    split
    · next hallows => exact .inl ⟨rfl, hallows⟩
    · exact .inr ⟨_, rfl⟩

theorem migrates {m : Mapping} (hnodup : (m.alterations.map (text m)).Nodup) :
    (setup m).Migrates Prod.fst m where
  alters {w w' r a} ha hrun := by
    change execute m (text m a) [] w = _ at hrun
    rcases execute_text hnodup ha w with ⟨hdone, hallows⟩ | ⟨e, hfails⟩
    · cases hdone.symm.trans hrun
      exact ⟨hallows, rfl⟩
    · cases hfails.symm.trans hrun
  refuses {w w' e a} ha hrun := by
    change execute m (text m a) [] w = _ at hrun
    rcases execute_text hnodup ha w with ⟨hdone, -⟩ | ⟨e, hfails⟩
    · cases hdone.symm.trans hrun
    · cases hfails.symm.trans hrun
      rfl
  lists hrun := by
    cases hrun
    refine ⟨rfl, ?_⟩
    simp [Act.columnInfos, List.findIdx?_cons, Text.sameName_refl, List.filterMap_map,
      Function.comp_def]
  listsNot hrun := by cases hrun

end Migrator

/-- Settings that were made without identifiers. -/
def Samples.bareSettings : Catalog := ⟨["Name", "Value"], []⟩

def Samples.settingsMigration (w : Migrator.World) :
    Except Error TableOutcome × Connection Migrator.World :=
  (Act.createTable Samples.settings.mapping).run (Migrator.setup Samples.settings.mapping)
    { world := w }

/-- The settings are locked when their identifiers are to become unique. -/
def Samples.lockedMigration : Except Error TableOutcome × Connection Migrator.World :=
  Samples.settingsMigration (Samples.bareSettings,
    [Migrator.text Samples.settings.mapping
      (.index (Samples.settings.mapping.ownIndex Column.sync))])

/-- The next call succeeds, and the identifiers are not unique. -/
theorem Samples.lockedMigration_strands :
    Samples.lockedMigration.1 = .error (.storage ⟨.busy, "database is locked"⟩) ∧
    Samples.settings.mapping.Strands Samples.bareSettings Samples.lockedMigration.2.world.1
      Column.sync ∧
    (Samples.settingsMigration (Samples.lockedMigration.2.world.1, [])).1 = .ok .migrated ∧
    (Samples.settingsMigration (Samples.bareSettings, [])).1 = .ok .migrated ∧
    (Samples.settingsMigration (Samples.lockedMigration.2.world.1, [])).2.world.1.columns =
      (Samples.settingsMigration (Samples.bareSettings, [])).2.world.1.columns ∧
    ¬(Samples.settingsMigration (Samples.lockedMigration.2.world.1, [])).2.world.1.SameUnique
      (Samples.settingsMigration (Samples.bareSettings, [])).2.world.1 := by
  have hs := Migrator.migrates (m := Samples.settings.mapping) (by decide +kernel)
  have hlocked : Samples.lockedMigration.1 = .error (.storage ⟨.busy, "database is locked"⟩) := by
    decide +kernel
  have hlast : (Samples.settingsMigration (Samples.lockedMigration.2.world.1, [])).1 =
      .ok .migrated := by decide +kernel
  have honce : (Samples.settingsMigration (Samples.bareSettings, [])).1 = .ok .migrated := by
    decide +kernel
  have hstrands : Samples.settings.mapping.Strands Samples.bareSettings
      Samples.lockedMigration.2.world.1 Column.sync :=
    ⟨by decide +kernel, by decide +kernel, by decide +kernel, by decide +kernel,
      by decide +kernel⟩
  have hnone : Index.named? Samples.settings.mapping.declared
      (Samples.settings.mapping.ownIndex Column.sync).name = none := by decide +kernel
  have hattempts : Act.Attempts (Migrator.setup Samples.settings.mapping) Prod.fst
      Samples.settings.mapping _ { world := (Samples.lockedMigration.2.world.1, []) } :=
    .failed (.start rfl) (Prod.fst_eq_iff.1 hlocked) rfl
  obtain ⟨hcolumns, hunique⟩ := Act.createTable_converges_iff hs (List.cons_ne_nil _ _) hattempts
    (Prod.fst_eq_iff.1 hlast) (d := { world := (Samples.bareSettings, []) }) rfl
    (Prod.fst_eq_iff.1 honce)
  refine ⟨hlocked, hstrands, hlast, honce, hcolumns, fun hsame => ?_⟩
  cases hnone.symm.trans (hunique.1 hsame _ hstrands)

end RowLedger
