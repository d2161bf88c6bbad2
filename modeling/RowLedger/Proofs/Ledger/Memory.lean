import Mathlib.Data.List.Pairwise
import RowLedger.Proofs.Ledger.Inserting

/-!
A database in memory that understands what SQLite is told about tracked tables. It compares values
as they are, and refuses what would give two rows the same primary key.
-/

namespace RowLedger

theorem Dialect.render_append (d : Dialect) (a b : Sql) :
    d.render (a ++ b) = d.render a ++ d.render b := by
  simp [Dialect.render, String.join_append]

theorem find?_eq_of_unique {α : Type} {p : α → Bool} {xs : List α} {a : α} (ha : a ∈ xs)
    (hp : p a = true) (hunique : ∀ b ∈ xs, p b = true → b = a) : xs.find? p = some a := by
  cases hfind : xs.find? p with
  | none => exact absurd hp (List.find?_eq_none.1 hfind a ha)
  | some b => rw [hunique b (List.mem_of_find?_eq_some hfind) (List.find?_some hfind)]

namespace Memory

/-- What a statement is for, as its first words tell. -/
inductive Verb
  | insert (m : Mapping) (ignoring : Bool)
  | update (m : Mapping)
  | delete (m : Mapping)
  | create (m : Mapping)
  | save | release | rollback
  | identifiers (m : Mapping)
  | columns (m : Mapping)

namespace Verb

def words : Verb → Sql
  | insert m ignoring =>
    [.word ((if ignoring then InsertMode.ignore else .insert).verb ++ " into "), .name m.table]
  | update m => [.word "update ", .name m.table]
  | delete m => [.word "delete from ", .name m.table]
  | create m => [.word "create table if not exists ", .name m.table]
  | save => [.word "savepoint "]
  | release => [.word "release "]
  | rollback => [.word "rollback"]
  | identifiers m => [.word "select ", .name m.syncColumn.name, .word " from ", .name m.table]
  | columns m => [.word "pragma table_info(", .name m.table]

def front (v : Verb) : List Char := (Dialect.sqlite.render v.words).toList

theorem toList_render (v : Verb) (rest : Sql) :
    (Dialect.sqlite.render (v.words ++ rest)).toList =
      v.front ++ (Dialect.sqlite.render rest).toList := by
  rw [Dialect.render_append, String.toList_append, front]

/-- Neither is the beginning of the other. -/
def Apart (u v : Verb) : Prop := ¬u.front <+: v.front ∧ ¬v.front <+: u.front

instance : Std.Symm Apart := ⟨fun _ _ h => ⟨h.2, h.1⟩⟩

instance (u v : Verb) : Decidable (Apart u v) := inferInstanceAs (Decidable (_ ∧ _))

end Verb

def verbs (ms : List Mapping) : List Verb :=
  .save :: .release :: .rollback :: ms.flatMap fun m =>
    [.insert m false, .insert m true, .update m, .delete m, .create m, .identifiers m, .columns m]

/-- The verb of a statement and what follows. -/
def read? (ms : List Mapping) (sql : String) : Option (Verb × List Char) :=
  ((verbs ms).find? fun v => v.front.isPrefixOf sql.toList).map
    fun v => (v, sql.toList.drop v.front.length)

theorem read?_eq {ms : List Mapping} (h : (verbs ms).Pairwise Verb.Apart) {v : Verb}
    (hv : v ∈ verbs ms) {sql : String} {rest : List Char} (hsql : sql.toList = v.front ++ rest) :
    read? ms sql = some (v, rest) := by
  have hfind : (verbs ms).find? (fun v => v.front.isPrefixOf sql.toList) = some v := by
    refine find?_eq_of_unique hv ?_ fun u hu hfront => ?_
    · rw [hsql, List.isPrefixOf_iff_prefix]
      exact List.prefix_append _ _
    · rw [hsql, List.isPrefixOf_iff_prefix] at hfront
      by_contra hne
      have hapart := h.forall hu hv hne
      rcases List.prefix_or_prefix_of_prefix hfront (List.prefix_append v.front rest) with hp | hp
      · exact hapart.1 hp
      · exact hapart.2 hp
  rw [read?, hfind, hsql]
  simp

/-! Comparing. -/

def same (x v : SqlValue) : Bool := v != .null && x == v

/-- The text of a condition: that the column of the one parameter has its value. -/
def holds (text : String) (params : List Param) (r : Record) : Bool :=
  match params with
  | [p] =>
    (text == Dialect.sqlite.render (Condition.keyed p).sql ||
      text == Dialect.sqlite.render (Condition.equal p.name p).sql) && same (r p.name) p.value
  | _ => false

def meaning : Meaning where
  holds _ c := holds (Dialect.sqlite.render c.sql) c.params
  same _ _ := same

theorem lawful (ms : List Mapping) : meaning.Lawful ms where
  keyed t k r := by
    simp [meaning, holds, Condition.keyed]
  itself {_ _ x v} h := by
    simp only [meaning, same, Bool.and_eq_true] at h ⊢
    exact ⟨h.1, beq_self_eq_true v⟩
  null := rfl
  identifier {m g h} _ hsame := by
    simp only [meaning, same, Bool.and_eq_true, beq_iff_eq] at hsame
    exact Guid.stored_injective hsame.2
  entry {c} text r _ := by
    simp [meaning, holds, same, Condition.equal]

/-- What stands behind the table: nothing, or a condition. -/
def found (rest : List Char) (params : List Param) (r : Record) : Bool :=
  let clause := " where ".toList
  if clause.isPrefixOf rest then holds (String.ofList (rest.drop clause.length)) params r else true

theorem found_whereClause (t : String) (c : Option Condition) :
    found (Dialect.sqlite.render (TableQuery.whereClause c)).toList
      ((c.map Condition.params).getD []) = meaning.selects t c := by
  funext r
  cases c with
  | none => rfl
  | some c =>
    have htext : (Dialect.sqlite.render (TableQuery.whereClause (some c))).toList =
        " where ".toList ++ (Dialect.sqlite.render c.sql).toList := by
      rw [TableQuery.whereClause, ← List.singleton_append, Dialect.render_append,
        String.toList_append]
      rfl
    rw [found, htext]
    simp [Meaning.selects, meaning]

/-! Storing. -/

/-- No two rows have the same primary key. -/
def Distinct (ms : List Mapping) (d : Tables) : Prop :=
  ∀ m ∈ ms, m.key ≠ none → (d.rows m.table).Pairwise fun a b =>
    ¬((m.columns.filter Column.primaryKey).all fun c => same (a c.name) (b c.name)) = true

instance (ms : List Mapping) (d : Tables) : Decidable (Distinct ms d) :=
  inferInstanceAs (Decidable (∀ m ∈ ms, m.key ≠ none → List.Pairwise _ _))

def Consistent (ms : List Mapping) (c : Contents) : Prop :=
  Distinct ms c.tables ∧ ∀ d ∈ c.saved, Distinct ms d

instance (ms : List Mapping) (c : Contents) : Decidable (Consistent ms c) :=
  inferInstanceAs (Decidable (_ ∧ ∀ d ∈ c.saved, _))

/-- The number of rows and the contents that a statement leads to, if they are consistent. -/
def Verb.effect (c : Contents) (rest : List Char) (params : List Param) : Verb → Nat × Contents
  | insert m _ => (1, c.withRows m.table
      (c.tables.rows m.table ++ [Record.assign (fun _ => .null) params]))
  | update m =>
    match params.getLast? with
    | some k =>
      let rows := c.tables.rows m.table
      let found := meaning.holds m.table (.keyed k)
      (rows.countP found,
        c.withRows m.table (rows.map (Record.assignIf found params.dropLast)))
    | none => (0, c)
  | delete m =>
    let rows := c.tables.rows m.table
    (rows.countP (found rest params),
      c.withRows m.table (rows.filter fun r => !found rest params r))
  | create m =>
    (0, { c with tables := c.tables.withTable m.table (m.columns.map Column.name) })
  | save => (0, { c with saved := some c.tables })
  | release => (0, { c with saved := none })
  | rollback => (0, ⟨c.saved.getD c.tables, none⟩)
  | identifiers _ | columns _ => (0, c)

/-- The rows that a query has. -/
def Verb.answer (c : Contents) (rest : List Char) (params : List Param) : Verb → ResultSet
  | identifiers m =>
    ⟨[⟨m.syncColumn.name, .text⟩],
      ((c.tables.rows m.table).filter (found rest params)).map fun r => [r m.syncColumn.name]⟩
  | columns m => ⟨[⟨"name", .text⟩], (c.tables.columns m.table).map fun n => [.text n]⟩
  | _ => {}

abbrev Store (ms : List Mapping) := { c : Contents // Consistent ms c }

def clash : StorageError := ⟨.constraint, "the primary key is taken"⟩

@[irreducible] def execute (ms : List Mapping) (sql : String) (params : List Param) (w : Store ms) :
    Reply (Store ms) ExecResult :=
  match read? (Ledger.mapping :: ms) sql with
  | none => (.error .closed, w)
  | some (v, rest) =>
    let (n, c) := v.effect w.1 rest params
    if h : Consistent ms c then (.ok { rowsAffected := n }, ⟨c, h⟩)
    else
      match v with
      | .insert _ true => (.ok {}, w)
      | _ => (.error clash, w)

@[irreducible] def query (ms : List Mapping) (sql : String) (params : List Param) (w : Store ms) :
    Reply (Store ms) ResultSet :=
  match read? (Ledger.mapping :: ms) sql with
  | none => (.error .closed, w)
  | some (v, rest) => (.ok (v.answer w.1 rest params), w)

def setup (ms : List Mapping) (guid : Nat → Guid) : Setup (Store ms) where
  driver := .buffered (execute ms) (query ms) (fun _ => true) fun w => (.ok (), w)
  config := .sqlite ":memory:"
  guid
  savepointNumber n := n

theorem Consistent.withRows {ms : List Mapping} {c : Contents} (h : Consistent ms c) {t : String}
    (ht : ∀ m ∈ ms, m.table ≠ t) (rs : List Record) : Consistent ms (c.withRows t rs) := by
  refine ⟨fun m hm hkey => ?_, h.2⟩
  rw [show (c.withRows t rs).tables.rows m.table = c.tables.rows m.table from
    Tables.rows_withRows_of_ne _ _ (ht m hm) rs]
  exact h.1 m hm hkey

theorem assign_of_mem {params : List Param} (h : (params.map Param.name).Nodup) {p : Param}
    (hp : p ∈ params) (r : Record) : r.assign params p.name = p.value := by
  have hfind : params.find? (fun q => q.name == p.name) = some p :=
    find?_eq_of_unique hp (beq_self_eq_true _) fun q hq hname =>
      List.inj_on_of_nodup_map h hq hp (beq_iff_eq.1 hname)
  rw [Record.assign, hfind]
  rfl

/-- The verb of a command. -/
def Verb.of : TableCommand → Verb
  | .insert m ignoring _ => .insert m ignoring
  | .update m _ _ _ => .update m
  | .delete m _ => .delete m
  | .create m => .create m
  | .save _ => .save
  | .release _ => .release
  | .rollback => .rollback

theorem Verb.of_mem_verbs {ms : List Mapping} {cmd : TableCommand}
    (h : ∀ m ∈ cmd.mapping?, m ∈ ms) : Verb.of cmd ∈ verbs ms := by
  have hmem {v : Verb} {m : Mapping} (hm : m ∈ ms) (hv : v ∈ [Verb.insert m false, .insert m true,
      .update m, .delete m, .create m, .identifiers m, .columns m]) : v ∈ verbs ms := by
    simp only [verbs, List.mem_cons]
    exact .inr (.inr (.inr (List.mem_flatMap.2 ⟨m, hm, hv⟩)))
  cases cmd with
  | insert m ignoring params => exact hmem (h m rfl) (by cases ignoring <;> simp [Verb.of])
  | update m _ _ _ => exact hmem (h m rfl) (by simp [Verb.of])
  | delete m _ => exact hmem (h m rfl) (by simp [Verb.of])
  | create m => exact hmem (h m rfl) (by simp [Verb.of])
  | save _ => simp [Verb.of, verbs]
  | release _ => simp [Verb.of, verbs]
  | rollback => simp [Verb.of, verbs]

/-- The text of a command begins with its verb, and what follows says the rest. -/
theorem exists_rest (cmd : TableCommand) : ∃ rest : List Char,
    (Dialect.sqlite.render (cmd.sql .sqlite)).toList = (Verb.of cmd).front ++ rest ∧
    ∀ c, (∀ m ∈ cmd.mapping?, m.WellFormed) → cmd.Fits c →
      cmd.Effect meaning c ((Verb.of cmd).effect c rest cmd.params).1
        ((Verb.of cmd).effect c rest cmd.params).2 := by
  cases cmd with
  | insert m ignoring params =>
    refine ⟨_, (Verb.insert m ignoring).toList_render _, fun c hm hfits => .inl ⟨rfl, _, ?_, rfl⟩⟩
    intro p hp
    refine assign_of_mem ?_ hp _
    rw [hfits.2]
    exact (hm m rfl).names_nodup _
  | update m positions params key =>
    refine ⟨_, (Verb.update m).toList_render _, fun c _ _ => ?_⟩
    simp [TableCommand.Effect, Verb.of, Verb.effect, TableCommand.params]
  | delete m condition =>
    refine ⟨_, (Verb.delete m).toList_render (TableQuery.whereClause condition), fun c _ _ => ?_⟩
    simp only [TableCommand.Effect, Verb.of, Verb.effect, TableCommand.params,
      found_whereClause m.table]
    exact ⟨trivial, trivial⟩
  | create m => exact ⟨_, (Verb.create m).toList_render _, fun c _ _ => rfl⟩
  | save name =>
    refine ⟨name.toList, ?_, fun c _ _ => rfl⟩
    simp [Verb.of, Verb.front, Verb.words, TableCommand.sql, Dialect.savepoint, Dialect.render,
      Dialect.renderPiece]
  | release name =>
    refine ⟨name.toList, ?_, fun c _ _ => rfl⟩
    simp [Verb.of, Verb.front, Verb.words, TableCommand.sql, Dialect.release?, Dialect.render,
      Dialect.renderPiece]
  | rollback =>
    refine ⟨[], ?_, fun c _ _ => rfl⟩
    simp [Verb.of, Verb.front, Verb.words, TableCommand.sql, Dialect.rollback]

/-- Only what changes a tracked table can be refused. -/
theorem consistent_effect {ts : List Tracked} {c : Contents}
    (h : Consistent (ts.map Tracked.mapping) c) {cmd : TableCommand}
    (hcmd : ¬Refusals.main.command c cmd) (rest : List Char) :
    Consistent (ts.map Tracked.mapping) ((Verb.of cmd).effect c rest cmd.params).2 := by
  have htable : ∀ m ∈ ts.map Tracked.mapping, m.table ≠ Ledger.tableName := by
    intro m hm
    obtain ⟨t, -, rfl⟩ := List.mem_map.1 hm
    exact t.table_ne
  cases cmd with
  | insert m ignoring params =>
    have hm : m.table = Ledger.tableName := not_not.1 fun hne => hcmd (.inl hne)
    exact h.withRows (by rw [hm]; exact htable) _
  | update m positions params key =>
    have hm : m.table = Ledger.tableName := not_not.1 hcmd
    simp only [Verb.of, Verb.effect, TableCommand.params, List.getLast?_concat]
    exact h.withRows (by rw [hm]; exact htable) _
  | delete m condition =>
    have hm : m.table = Ledger.tableName := not_not.1 hcmd
    exact h.withRows (by rw [hm]; exact htable) _
  | create m => exact h
  | save name => exact ⟨h.1, fun d hd => Option.mem_some.1 hd ▸ h.1⟩
  | release name => exact ⟨h.1, fun d hd => by cases hd⟩
  | rollback =>
    refine ⟨?_, fun d hd => by cases hd⟩
    obtain ⟨tables, saved⟩ := c
    cases saved with
    | none => exact h.1
    | some d => exact h.2 d rfl

theorem mem_verbs {ms : List Mapping} {m : Mapping} (hm : m ∈ ms) :
    Verb.identifiers m ∈ verbs ms ∧ Verb.columns m ∈ verbs ms := by
  simp only [verbs, List.mem_cons]
  exact ⟨.inr (.inr (.inr (List.mem_flatMap.2 ⟨m, hm, by simp⟩))),
    .inr (.inr (.inr (List.mem_flatMap.2 ⟨m, hm, by simp⟩)))⟩

theorem scalar_eq {ms : List Mapping} (guid : Nat → Guid) {sql : String} {params : List Param}
    {w : Store ms} {set : ResultSet} (h : query ms sql params w = (.ok set, w)) :
    (setup ms guid).driver.scalar sql params w = (.ok set.scalar, w) := by
  simp only [setup, Driver.buffered, h]
  rfl

section

variable {ts : List Tracked} (hapart : (verbs (Tracked.mappings ts)).Pairwise Verb.Apart)
  {w : Store (ts.map Tracked.mapping)} {m : Mapping}

include hapart

theorem execute_carried (cmd : TableCommand) (hknown : ∀ m ∈ cmd.mapping?, m ∈ Tracked.mappings ts)
    (hfits : cmd.Fits w.1) :
    Carried Subtype.val w (fun r : ExecResult => cmd.Effect meaning w.1 r.rowsAffected)
      (Refusals.main.command w.1 cmd)
      (execute (ts.map Tracked.mapping) (Dialect.sqlite.render (cmd.sql .sqlite)) cmd.params
        w) := by
  obtain ⟨rest, htext, heffect⟩ := exists_rest cmd
  have heffect := heffect w.1
    (fun m hm => Tracked.wellFormed_of_mem_mappings (hknown m hm)) hfits
  have hread := read?_eq hapart (Verb.of_mem_verbs hknown) htext
  rw [Tracked.mappings_eq] at hread
  rw [execute, hread]
  dsimp only
  split
  · exact .done heffect
  · next hclash =>
    have hrefused : Refusals.main.command w.1 cmd := by
      by_contra hcmd
      exact hclash (consistent_effect w.2 hcmd rest)
    split
    · next m hv =>
      cases cmd <;> cases hv
      exact .done (.inr ⟨rfl, rfl, rfl⟩)
    · exact .refused hrefused rfl

/-- The rows that fulfil a condition are found in their order. -/
theorem query_identifiers (hm : m ∈ Tracked.mappings ts) (condition : Option Condition) :
    query (ts.map Tracked.mapping) (Dialect.sqlite.render
        ((Verb.identifiers m).words ++ TableQuery.whereClause condition))
      ((condition.map Condition.params).getD []) w =
      (.ok ⟨[⟨m.syncColumn.name, .text⟩],
        ((w.1.tables.rows m.table).filter (meaning.selects m.table condition)).map
          fun r => [r m.syncColumn.name]⟩, w) := by
  have hread := read?_eq hapart (mem_verbs hm).1
    ((Verb.identifiers m).toList_render (TableQuery.whereClause condition))
  rw [Tracked.mappings_eq] at hread
  rw [query, hread, ← found_whereClause]
  rfl

theorem scalar_carried (guid : Nat → Guid) (hm : m ∈ Tracked.mappings ts) (key : Param) :
    Carried Subtype.val w
      (fun v c => c = w.1 ∧
        ((∃ r ∈ w.1.tables.rows m.table,
            meaning.holds m.table (.keyed key) r = true ∧ v = r m.syncColumn.name) ∨
          (∀ r ∈ w.1.tables.rows m.table, meaning.holds m.table (.keyed key) r = false) ∧
            v = .null))
      (Refusals.main.question (.identifier m key))
      ((setup (ts.map Tracked.mapping) guid).driver.scalar
        (Dialect.sqlite.render ((TableQuestion.identifier m key).sql .sqlite))
        (TableQuestion.identifier m key).params w) := by
  have hquery : query (ts.map Tracked.mapping)
      (Dialect.sqlite.render ((TableQuestion.identifier m key).sql .sqlite))
      (TableQuestion.identifier m key).params w = _ :=
    query_identifiers hapart hm (some (.keyed key))
  rw [scalar_eq guid hquery]
  refine .done ⟨rfl, ?_⟩
  cases hrows : (w.1.tables.rows m.table).filter (meaning.selects m.table (some (.keyed key))) with
  | nil => exact .inr ⟨fun r hr => eq_false_of_ne_true (List.filter_eq_nil_iff.1 hrows r hr), rfl⟩
  | cons r rs =>
    have hr : r ∈ (w.1.tables.rows m.table).filter
        (meaning.selects m.table (some (.keyed key))) := by
      rw [hrows]
      exact List.mem_cons_self
    exact .inl ⟨r, (List.mem_filter.1 hr).1, (List.mem_filter.1 hr).2, rfl⟩

theorem query_columns (hm : m ∈ Tracked.mappings ts) :
    query (ts.map Tracked.mapping)
        (Dialect.sqlite.render ((Verb.columns m).words ++ [.word ")"])) [] w =
      (.ok ⟨[⟨"name", .text⟩], (w.1.tables.columns m.table).map fun n => [.text n]⟩, w) := by
  have hread := read?_eq hapart (mem_verbs hm).2 ((Verb.columns m).toList_render [.word ")"])
  rw [Tracked.mappings_eq] at hread
  rw [query, hread]
  rfl

theorem faithful (guid : Nat → Guid) :
    (setup (ts.map Tracked.mapping) guid).Faithful Subtype.val meaning .main
      (Tracked.mappings ts) where
  executes := execute_carried hapart
  selects {w m} condition hm _ := by
    have hquery := query_identifiers hapart hm condition (w := w)
    have hcarried : Carried Subtype.val w
        (fun (set : ResultSet) c => c = w.1 ∧ ∃ rs : List Record,
          rs.Perm ((w.1.tables.rows m.table).filter (meaning.selects m.table condition)) ∧
            set.rows = rs.map fun r => [r m.syncColumn.name])
        (Refusals.main.question (.identifiers m condition))
        (query (ts.map Tracked.mapping) (Dialect.sqlite.render
          ((Verb.identifiers m).words ++ TableQuery.whereClause condition))
          ((condition.map Condition.params).getD []) w) := by
      rw [hquery]
      exact .done ⟨rfl, _, .refl _, rfl⟩
    exact hcarried
  looksUp key hm _ := scalar_carried hapart guid hm key
  lists {w m} hm := by
    have hcarried : Carried Subtype.val w
        (fun (set : ResultSet) c => c = w.1 ∧
          (Act.columnInfos set).map ColumnInfo.name = w.1.tables.columns m.table)
        (Refusals.main.question (.columns m))
        (query (ts.map Tracked.mapping)
          (Dialect.sqlite.render ((Verb.columns m).words ++ [.word ")"])) [] w) := by
      rw [query_columns hapart hm]
      refine .done ⟨rfl, ?_⟩
      simp [Act.columnInfos, List.findIdx?_cons, Text.sameName_refl, List.filterMap_map,
        Function.comp_def]
    exact hcarried

end

theorem countP_le_one_of_pairwise {α : Type} {p : α → Bool} {R : α → α → Prop} {xs : List α}
    (h : xs.Pairwise fun a b => ¬R a b) (hp : ∀ a b, p a = true → p b = true → R a b) :
    xs.countP p ≤ 1 := by
  induction xs with
  | nil => exact Nat.zero_le 1
  | cons x xs ih =>
    obtain ⟨hx, hxs⟩ := List.pairwise_cons.1 h
    by_cases hpx : p x = true
    · have hnone : xs.countP p = 0 :=
        List.countP_eq_zero.2 fun y hy hpy => hx y hy (hp x y hpx hpy)
      exact Nat.le_of_eq (by rw [List.countP_cons_of_pos hpx, hnone])
    · rw [List.countP_cons_of_neg hpx]
      exact ih hxs

theorem same_of_same {x y v : SqlValue} (hx : same x v = true) (hy : same y v = true) :
    same x y = true := by
  simp only [same, Bool.and_eq_true, beq_iff_eq] at hx hy ⊢
  rw [hy.2, hx.2]
  exact ⟨hx.1, rfl⟩

theorem tracking {ts : List Tracked} (hts : Tracked.Apart ts)
    (hapart : (verbs (Tracked.mappings ts)).Pairwise Verb.Apart) (guid : Nat → Guid) :
    Tracking (setup (ts.map Tracked.mapping) guid) Subtype.val meaning ts where
  apart := hts
  lawful := lawful _
  faithful := faithful hapart guid
  keys w t ht hkey v := by
    refine countP_le_one_of_pairwise (w.2.1 t.mapping (List.mem_map_of_mem ht) hkey)
      fun a b ha hb => ?_
    rw [List.all_eq_true] at ha hb ⊢
    exact fun c hc => same_of_same (ha c hc) (hb c hc)

end Memory

end RowLedger
