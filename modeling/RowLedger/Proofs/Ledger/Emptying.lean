import RowLedger.Proofs.Ledger.Interrupted

/-!
Emptying a tracked table. The table and the ledger change together or not at all, whichever
statement is refused.
-/

namespace RowLedger

/-- Is an entry of the ledger about a row of the table? -/
def Record.isAbout (table : String) (e : Record) : Bool := e "TableName" == .text table

theorem Record.Enters.isAbout {e : Record} {table : String} {g : Guid} {action : Action}
    (h : e.Enters table g action) : e.isAbout table = true := by
  rw [Record.isAbout, h.table]
  exact beq_self_eq_true _

namespace Ledger

/-- What is left after a table was emptied of a number of rows. -/
structure Emptied (m : Mapping) (count : Nat) (rows rows' : String → List Record) : Prop where
  empty : rows' m.table = []
  count : count = (rows m.table).length
  /-- The ledger has one deletion for each row that had an identifier. -/
  entries : ∃ gs : List Guid,
    gs.Perm ((rows m.table).filterMap (Record.identifier? m.syncColumn.name)) ∧
    List.Forall₂ (fun g (e : Record) => e.Enters m.table g .delete) gs
      ((rows' tableName).filter (Record.isAbout m.table))
  /-- What it has about other tables is what it had. -/
  others : (rows' tableName).filter (fun e => !e.isAbout m.table) =
    (rows tableName).filter fun e => !e.isAbout m.table
  elsewhere : ∀ t, t ≠ m.table → t ≠ tableName → rows' t = rows t

/-- The entries about a table are replaced, and its rows are gone. -/
theorem Emptied.of_update {m : Mapping} (hother : m.table ≠ tableName)
    {rows : String → List Record} {gs : List Guid} {es : List Record}
    (hgs : gs.Perm ((rows m.table).filterMap (Record.identifier? m.syncColumn.name)))
    (hes : List.Forall₂ (fun g (e : Record) => e.Enters m.table g .delete) gs es) :
    Emptied m (rows m.table).length rows
      (Function.update (Function.update rows tableName
        ((rows tableName).filter (fun e => !e.isAbout m.table) ++ es)) m.table []) where
  empty := Function.update_self ..
  count := rfl
  entries := by
    have habout : es.filter (Record.isAbout m.table) = es := by
      rw [List.filter_eq_self]
      intro e he
      obtain ⟨g, -, hg⟩ := exists_of_mem_right hes he
      exact hg.isAbout
    have hnone : ((rows tableName).filter fun e => !e.isAbout m.table).filter
        (Record.isAbout m.table) = [] := by
      rw [List.filter_filter, List.filter_eq_nil_iff]
      simp
    refine ⟨gs, hgs, ?_⟩
    rw [Function.update_of_ne hother.symm, Function.update_self, List.filter_append, hnone, habout]
    exact hes
  others := by
    have hnone : es.filter (fun e => !e.isAbout m.table) = [] := by
      rw [List.filter_eq_nil_iff]
      intro e he
      obtain ⟨g, -, hg⟩ := exists_of_mem_right hes he
      simp [hg.isAbout]
    rw [Function.update_of_ne hother.symm, Function.update_self, List.filter_append, hnone,
      List.append_nil, List.filter_filter]
    simp
  elsewhere t ht hledger := by
    rw [Function.update_of_ne ht, Function.update_of_ne hledger]

end Ledger

namespace Act

open Ledger (Emptied)

variable {σ : Type} {s : Setup σ} {view : σ → Contents} {M : Meaning} {R : Refusals}
  {t : RecordType} {m : Mapping} {c : Connection σ}

/-- What empties a table, without the transaction around it. -/
def emptying (m : Mapping) : Act σ Nat := do
  recordDeleteAll m
  let count ← execCount [.word "delete from ", .name m.table] []
  if 0 < count then notify m .delete
  return count

theorem deleteAllOf_eq (hm : isLedger m = false) :
    (deleteAllOf m : Act σ Nat) = runInTransaction (emptying m) := by
  rw [deleteAllOf, hm]
  simp only [Bool.not_false, if_true]
  rfl

theorem run_emptying (hM : M.Lawful [Ledger.mapping])
    (hf : s.Faithful view M R [Ledger.mapping, m]) (h : Steady s view [] c)
    (hother : m.table ≠ Ledger.tableName) (hhas : (view c.world).tables.Has m.table) :
    ∃ r c' rows, (emptying m).run s c = (r, c') ∧ Leaves s view [] c c' rows ∧
      ∀ n, r = .ok n → Emptied m n (view c.world).tables.rows rows := by
  have hm : m ∈ [Ledger.mapping, m] := List.mem_cons_of_mem _ List.mem_cons_self
  rcases run_recordDeleteAll_cases Tracked.Apart.nil hM hf.ledger hf h hm hother hhas with
    ⟨rs, gs, es, c₁, h₁, hperm, hgs, hes, k₁⟩ | ⟨e, c₁, rows, h₁, k₁, -⟩
  swap
  · exact ⟨_, c₁, rows, run_bind_error _ h₁, k₁, fun n hn => by cases hn⟩
  rw [emptying, run_bind_ok _ h₁]
  rcases run_delete_cases (c := c₁) hf hm (k₁.has hother hhas) none with
    ⟨w, h₂, hw⟩ | ⟨e, w, h₂, hw⟩
  swap
  · exact ⟨_, _, _, run_bind_error _ h₂, k₁.still (.sameView k₁.steady hw),
      fun n hn => by cases hn⟩
  -- the entries are made before the rows go, so these are all still there
  have hrows : (view c₁.world).tables.rows m.table = (view c.world).tables.rows m.table := by
    rw [k₁.rows, Function.update_of_ne hother]
  have hgone : ((view c.world).tables.rows m.table).filter
      (fun r => !M.selects m.table none r) = [] :=
    List.filter_eq_nil_iff.2 fun _ _ => Bool.not_eq_true _ ▸ rfl
  have hall : ((view c.world).tables.rows m.table).countP (M.selects m.table none) =
      ((view c.world).tables.rows m.table).length := List.countP_eq_length.2 fun _ _ => rfl
  rw [hrows, hgone] at hw
  rw [hrows, hall] at h₂
  have k₂ := Leaves.withRows k₁.steady hw
  rw [k₁.rows] at k₂
  obtain ⟨c₃, h₃, k₃⟩ := run_notified k₂.steady m ((view c.world).tables.rows m.table).length
  refine ⟨_, c₃, _, (run_bind_ok _ h₂).trans h₃, (k₁.trans k₂).still k₃, ?_⟩
  rintro n ⟨⟩
  exact Emptied.of_update hother (guidsOf_eq hgs ▸ hperm.filterMap _) hes

end Act

/-- Emptying a tracked table outside of a transaction leaves none open. If it succeeds the table is
empty, the count is that of its rows, and the ledger has just their deletions besides what it had
about other tables. If it fails, whichever statements the database refused, all tables are as they
were. -/
theorem Ledger.deleteAll_whole {σ : Type} {s : Setup σ} {view : σ → Contents} {M : Meaning}
    {R : Refusals} {t : RecordType} {m : Mapping} {c : Connection σ} (hM : M.Lawful [mapping])
    (hf : s.Faithful view M R [mapping, m]) (hu : s.Undoes view) (h : Enrolled s view t m c)
    (hdepth : c.depth = 0) (hsaved : (view c.world).saved = none) :
    ∃ r c', (Act.deleteAll t).run s c = (r, c') ∧ c'.depth = 0 ∧
      (view c'.world).saved = none ∧
      match r with
      | .ok n => Emptied m n (view c.world).tables.rows (view c'.world).tables.rows
      | .error _ => (view c'.world).tables = (view c.world).tables := by
  obtain ⟨registry, hmapping, h'⟩ := h.run_mapping_eq
  rw [Act.deleteAll, Act.run_bind_ok _ hmapping, Act.deleteAllOf_eq h.not_isLedger]
  -- inside the transaction what was there before is kept for a rollback
  have hbody : ∀ w, view w = ⟨(view c.world).tables, some (view c.world).tables⟩ →
      ∃ r c₂, (Act.emptying m).run s (Act.opened { c with registry } w) = (r, c₂) ∧
        c₂.depth = 1 ∧ (view c₂.world).saved = some (view c.world).tables ∧
        ∀ n, r = .ok n → Emptied m n (view c.world).tables.rows (view c₂.world).tables.rows := by
    intro w hw
    have hsteady : Steady s view [] (Act.opened { c with registry } w) :=
      h'.steady.of_eq rfl rfl rfl (by rw [Act.opened, hw]) id
    have hhas : (view (Act.opened { c with registry } w).world).tables.Has m.table := by
      rw [Act.opened, hw]
      exact h.present
    obtain ⟨r, c₂, rows, hrun, k, hemptied⟩ := Act.run_emptying hM hf hsteady h.table_ne hhas
    refine ⟨r, c₂, hrun, k.depth, k.saved.trans (by rw [Act.opened, hw]), fun n hn => ?_⟩
    have hdone := hemptied n hn
    rw [Act.opened, hw] at hdone
    rw [k.rows]
    exact hdone
  obtain ⟨r, c', hrun, hdepth', hsaved', hdone⟩ :=
    Act.run_runInTransaction_cases (c := { c with registry }) hf hu hdepth hsaved
      (P := fun n d => Emptied m n (view c.world).tables.rows d.rows) hbody
  exact ⟨r, c', hrun, hdepth', hsaved', by cases r <;> exact hdone⟩

/-! Settings that are deleted, and settings whose deletion is refused. -/

namespace Memory

variable {ts : List Tracked} (hapart : (verbs (Tracked.mappings ts)).Pairwise Verb.Apart)
  (guid : Nat → Guid)

include hapart

theorem undoes : (setup (ts.map Tracked.mapping) guid).Undoes Subtype.val := by
  intro w
  have hsql : "rollback".toList = Verb.rollback.front ++ [] := rfl
  have hread := read?_eq hapart (by simp [verbs]) hsql
  rw [Tracked.mappings_eq] at hread
  have hmain : ¬Refusals.main.command w.1 .rollback := id
  have hkept : Consistent (ts.map Tracked.mapping) (Verb.rollback.effect w.1 [] []).2 :=
    consistent_effect w.2 hmain []
  change (execute (ts.map Tracked.mapping) "rollback" [] w).2.1 = _
  rw [execute, hread]
  dsimp only
  rw [dif_pos hkept]
  rfl

theorem refusing_undoes {front : List Char} (hfront : front.isPrefixOf "rollback".toList = false) :
    (refusing (ts.map Tracked.mapping) front guid).Undoes Subtype.val := by
  intro w
  change (refuse (ts.map Tracked.mapping) front "rollback" [] w).2.1 = _
  rw [refuse, hfront]
  exact undoes hapart guid w

end Memory

/-- A database that deletes no settings. -/
def Samples.keepingSetup : Setup (Memory.Store [Samples.settings.mapping]) :=
  Memory.refusing [Samples.settings.mapping] (Memory.Verb.delete Samples.settings.mapping).front
    Samples.settingSetup.guid

def Samples.emptyThemes (s : Setup (Memory.Store [Samples.settings.mapping])) :
    Except Error Nat × Connection (Memory.Store [Samples.settings.mapping]) :=
  (Act.deleteAll Samples.setting).run s { world := Samples.themeStore, guidsDrawn := 1 }

/-- The only setting is deleted. Where that is refused its entry comes back. -/
theorem Samples.emptyThemes_whole :
    ((Samples.emptyThemes Samples.settingSetup).1 = .ok 1 ∧
      Ledger.Emptied Samples.settings.mapping 1 Samples.themeTables.rows
        (Samples.emptyThemes Samples.settingSetup).2.world.1.tables.rows) ∧
    (Samples.emptyThemes Samples.keepingSetup).1 =
      .error (.storage ⟨.full, "database or disk is full"⟩) ∧
    (Samples.emptyThemes Samples.keepingSetup).2.depth = 0 ∧
    (Samples.emptyThemes Samples.keepingSetup).2.world.1.tables = Samples.themeTables := by
  have hdone : (Samples.emptyThemes Samples.settingSetup).1 = .ok 1 := by decide +kernel
  have hkept : (Samples.emptyThemes Samples.keepingSetup).1 =
      .error (.storage ⟨.full, "database or disk is full"⟩) := by decide +kernel
  have hf : Samples.settingSetup.Faithful Subtype.val Memory.meaning .main
      [Ledger.mapping, Samples.settings.mapping] := Memory.faithful Samples.settings_verbs _
  have hu : Samples.settingSetup.Undoes Subtype.val := Memory.undoes Samples.settings_verbs _
  have hf' : Samples.keepingSetup.Faithful Subtype.val Memory.meaning
      (Memory.refusals (Memory.Verb.delete Samples.settings.mapping).front)
      [Ledger.mapping, Samples.settings.mapping] :=
    Memory.refusing_faithful Samples.settings_verbs _ _
  have hu' : Samples.keepingSetup.Undoes Subtype.val :=
    Memory.refusing_undoes Samples.settings_verbs _ (by decide +kernel)
  obtain ⟨r, c, hrun, -, -, hemptied⟩ := Ledger.deleteAll_whole (Memory.lawful _) hf hu
    (Samples.themeStore_enrolled _ 1) rfl rfl
  obtain ⟨r', c', hrun', hdepth, -, hsame⟩ := Ledger.deleteAll_whole (Memory.lawful _) hf' hu'
    (Samples.themeStore_enrolled _ 1) rfl rfl
  rw [Samples.emptyThemes, hrun] at hdone
  rw [Samples.emptyThemes, hrun'] at hkept
  dsimp only at hdone hkept
  subst hdone hkept
  rw [Samples.emptyThemes, hrun, Samples.emptyThemes, hrun']
  exact ⟨⟨rfl, hemptied⟩, rfl, hdepth, hsame⟩

end RowLedger
