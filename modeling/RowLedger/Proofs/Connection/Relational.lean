import Mathlib.Logic.Function.Basic
import RowLedger.Connection.Mutation

/-!
A database as tables of rows: what it is to carry out the statements that a connection issues for
the tables that it tracks and for the ledger. How a database compares values is left open.
-/

namespace RowLedger

/-- A stored row, by the names of its columns. -/
abbrev Record := String → SqlValue

structure Tables where
  /-- The columns of a table; none if the table does not exist. -/
  columns : String → List String
  rows : String → List Record

namespace Tables

variable (d : Tables) (t : String)

def Has : Prop := d.columns t ≠ []

def withRows (rs : List Record) : Tables := { d with rows := Function.update d.rows t rs }

def withTable (cs : List String) : Tables := { d with columns := Function.update d.columns t cs }

@[simp] theorem columns_withRows (rs : List Record) : (d.withRows t rs).columns = d.columns := rfl

@[simp] theorem rows_withRows (rs : List Record) : (d.withRows t rs).rows t = rs :=
  Function.update_self ..

theorem rows_withRows_of_ne {u : String} (h : u ≠ t) (rs : List Record) :
    (d.withRows t rs).rows u = d.rows u :=
  Function.update_of_ne h ..

@[simp] theorem rows_withTable (cs : List String) : (d.withTable t cs).rows = d.rows := rfl

@[simp] theorem columns_withTable (cs : List String) : (d.withTable t cs).columns t = cs :=
  Function.update_self ..

theorem columns_withTable_of_ne {u : String} (h : u ≠ t) (cs : List String) :
    (d.withTable t cs).columns u = d.columns u :=
  Function.update_of_ne h ..

end Tables

/-- The tables, and those that a rollback brings back while a transaction is open. -/
structure Contents where
  tables : Tables
  saved : Option Tables

def Contents.withRows (c : Contents) (t : String) (rs : List Record) : Contents :=
  { c with tables := c.tables.withRows t rs }

namespace Condition

/-- The condition that a key has a value. -/
def keyed (k : Param) : Condition := ⟨[.name k.name, .word " = ", .hole k.name], [k]⟩

/-- The condition that a predicate for one value of a column compiles to. -/
def equal (column : String) (p : Param) : Condition :=
  ⟨[.word "(", .name column, .word " = ", .hole p.name, .word ")"], [p]⟩

end Condition

/-- What conditions on the rows of a table mean, and which values of a column count as equal. -/
structure Meaning where
  holds : String → Condition → Record → Bool
  same : String → String → SqlValue → SqlValue → Bool

namespace Meaning

variable (M : Meaning)

/-- Without a condition every row counts. -/
def selects (t : String) (c : Option Condition) (r : Record) : Bool := c.all fun c => M.holds t c r

end Meaning

/-- Puts the values of parameters into a row. -/
def Record.assign (r : Record) (params : List Param) : Record := fun c =>
  ((params.find? fun p => p.name == c).map Param.value).getD (r c)

theorem Record.assign_of_not_mem (r : Record) {params : List Param} {c : String}
    (h : c ∉ params.map Param.name) : r.assign params c = r c := by
  have hnone : params.find? (fun p => p.name == c) = none := by
    rw [List.find?_eq_none]
    intro p hp hname
    exact h (List.mem_map.2 ⟨p, hp, beq_iff_eq.1 hname⟩)
  rw [Record.assign, hnone]
  rfl

@[simp] theorem Record.assign_singleton (r : Record) (p : Param) :
    r.assign [p] p.name = p.value := by
  simp [Record.assign]

/-- A row after an update of those that are found. -/
def Record.assignIf (found : Record → Bool) (params : List Param) (r : Record) : Record :=
  if found r then r.assign params else r

/-- The statements that change tables. -/
inductive TableCommand
  | insert (m : Mapping) (ignoring : Bool) (params : List Param)
  | update (m : Mapping) (positions : List Nat) (params : List Param) (key : Param)
  | delete (m : Mapping) (condition : Option Condition)
  | create (m : Mapping)
  /-- Opens a transaction. -/
  | save (name : String)
  /-- Closes a transaction and keeps its work. -/
  | release (name : String)
  | rollback

namespace TableCommand

def sql (d : Dialect) : TableCommand → Sql
  | insert m ignoring _ => d.insert m m.insertColumns (if ignoring then .ignore else .insert)
  | update m positions _ key => Act.updateStatement m positions key.name
  | delete m c => .word "delete from " :: .name m.table :: TableQuery.whereClause c
  | create m => d.createTable m
  | save name => d.savepoint name 0
  | release name => (d.release? name 0).getD []
  | rollback => d.rollback

def params : TableCommand → List Param
  | insert _ _ params => params
  | update _ _ params key => params ++ [key]
  | delete _ c => (c.map Condition.params).getD []
  | _ => []

def mapping? : TableCommand → Option Mapping
  | insert m _ _ | update m _ _ _ | delete m _ | create m => some m
  | _ => none

/-- What has to be there for the statement to make sense. -/
def Fits (c : Contents) : TableCommand → Prop
  | insert m _ params =>
    c.tables.Has m.table ∧
      params.map Param.name = (m.columnsAt m.insertColumns).map Column.name
  | update m positions params _ =>
    c.tables.Has m.table ∧ params.map Param.name = (m.columnsAt positions).map Column.name
  | delete m _ => c.tables.Has m.table
  | create m => ¬c.tables.Has m.table
  | save _ => c.saved = none
  | release _ | rollback => c.saved ≠ none

/-- What the statement does to the tables, and the number of rows that it reports. -/
def Effect (M : Meaning) (c : Contents) : TableCommand → Nat → Contents → Prop
  | insert m ignoring params, n, c' =>
    (n = 1 ∧ ∃ r : Record, (∀ p ∈ params, r p.name = p.value) ∧
      c' = c.withRows m.table (c.tables.rows m.table ++ [r])) ∨
    (ignoring = true ∧ n = 0 ∧ c' = c)
  | update m _ params key, n, c' =>
    let found := M.holds m.table (.keyed key)
    n = (c.tables.rows m.table).countP found ∧
    c' = c.withRows m.table ((c.tables.rows m.table).map (Record.assignIf found params))
  | delete m condition, n, c' =>
    let found := M.selects m.table condition
    n = (c.tables.rows m.table).countP found ∧
    c' = c.withRows m.table ((c.tables.rows m.table).filter fun r => !found r)
  | create m, _, c' =>
    c' = { c with tables := c.tables.withTable m.table (m.columns.map Column.name) }
  | save _, _, c' => c' = { c with saved := some c.tables }
  | release _, _, c' => c' = { c with saved := none }
  | rollback, _, c' => c' = ⟨c.saved.getD c.tables, none⟩

end TableCommand

/-- The queries that the ledger is kept with. -/
inductive TableQuestion
  /-- The identifiers of the rows that fulfil a condition. -/
  | identifiers (m : Mapping) (condition : Option Condition)
  /-- The identifier of the row with a key. -/
  | identifier (m : Mapping) (key : Param)
  | columns (m : Mapping)

namespace TableQuestion

def sql (d : Dialect) : TableQuestion → Sql
  | identifiers m c =>
    [.word "select ", .name m.syncColumn.name, .word " from ", .name m.table] ++
      TableQuery.whereClause c
  | identifier m key =>
    [.word "select ", .name m.syncColumn.name, .word " from ", .name m.table] ++
      TableQuery.whereClause (some (.keyed key))
  | columns m => d.tableInfo m.table

def params : TableQuestion → List Param
  | identifiers _ c => (c.map Condition.params).getD []
  | identifier _ key => [key]
  | columns _ => []

end TableQuestion

/-- What a database may refuse; it changes nothing then. -/
structure Refusals where
  command : Contents → TableCommand → Prop
  question : TableQuestion → Prop

/-- A reply that carries an effect out, or refuses to. -/
inductive Carried {σ α : Type} (view : σ → Contents) (w : σ) (effect : α → Contents → Prop)
    (refused : Prop) : Reply σ α → Prop
  | done {a : α} {w' : σ} (h : effect a (view w')) : Carried view w effect refused (.ok a, w')
  | refused {e : StorageError} {w' : σ} (h : refused) (hw : view w' = view w) :
      Carried view w effect refused (.error e, w')

theorem Carried.imp {σ α : Type} {view : σ → Contents} {w : σ} {effect : α → Contents → Prop}
    {p q : Prop} {reply : Reply σ α} (h : Carried view w effect p reply) (hpq : p → q) :
    Carried view w effect q reply := by
  cases h with
  | done h => exact .done h
  | refused h hw => exact .refused (hpq h) hw

/-- A driver that carries out the statements for some tables. -/
structure Setup.Faithful {σ : Type} (s : Setup σ) (view : σ → Contents) (M : Meaning)
    (R : Refusals) (known : List Mapping) : Prop where
  executes {w : σ} (cmd : TableCommand) :
    (∀ m ∈ cmd.mapping?, m ∈ known) → cmd.Fits (view w) →
      Carried view w (fun r : ExecResult => cmd.Effect M (view w) r.rowsAffected)
        (R.command (view w) cmd)
        (s.driver.execute (s.config.dialect.render (cmd.sql s.config.dialect)) cmd.params w)
  /-- The rows come in any order. -/
  selects {w : σ} {m : Mapping} (condition : Option Condition) :
    m ∈ known → (view w).tables.Has m.table →
      Carried view w
        (fun (set : ResultSet) c => c = view w ∧ ∃ rs : List Record,
          rs.Perm (((view w).tables.rows m.table).filter (M.selects m.table condition)) ∧
          set.rows = rs.map fun r => [r m.syncColumn.name])
        (R.question (.identifiers m condition))
        (s.driver.query
          (s.config.dialect.render ((TableQuestion.identifiers m condition).sql s.config.dialect))
          (TableQuestion.identifiers m condition).params w)
  /-- Without a row the answer is null. -/
  looksUp {w : σ} {m : Mapping} (key : Param) :
    m ∈ known → (view w).tables.Has m.table →
      Carried view w
        (fun v c => c = view w ∧
          ((∃ r ∈ (view w).tables.rows m.table,
              M.holds m.table (.keyed key) r = true ∧ v = r m.syncColumn.name) ∨
            (∀ r ∈ (view w).tables.rows m.table, M.holds m.table (.keyed key) r = false) ∧
              v = .null))
        (R.question (.identifier m key))
        (s.driver.scalar
          (s.config.dialect.render ((TableQuestion.identifier m key).sql s.config.dialect))
          (TableQuestion.identifier m key).params w)
  lists {w : σ} {m : Mapping} :
    m ∈ known →
      Carried view w
        (fun set c => c = view w ∧
          (Act.columnInfos set).map ColumnInfo.name = (view w).tables.columns m.table)
        (R.question (.columns m))
        (s.driver.query
          (s.config.dialect.render ((TableQuestion.columns m).sql s.config.dialect))
          (TableQuestion.columns m).params w)

/-- The same database, but for the statements that change it. -/
def Setup.executing {σ : Type} (s : Setup σ)
    (execute : String → List Param → σ → Reply σ ExecResult) : Setup σ :=
  { s with driver := { s.driver with execute } }

namespace Setup.Faithful

variable {σ : Type} {s : Setup σ} {view : σ → Contents} {M : Meaning} {R : Refusals}
  {known known' : List Mapping}

theorem mono (h : s.Faithful view M R known) (hknown : ∀ m ∈ known', m ∈ known) :
    s.Faithful view M R known' where
  executes cmd hcmd := h.executes cmd fun m hm => hknown m (hcmd m hm)
  selects condition hm := h.selects condition (hknown _ hm)
  looksUp key hm := h.looksUp key (hknown _ hm)
  lists hm := h.lists (hknown _ hm)

theorem executing (h : s.Faithful view M R known) {command : Contents → TableCommand → Prop}
    {execute : String → List Param → σ → Reply σ ExecResult}
    (hexecutes : ∀ (w : σ) (cmd : TableCommand), (∀ m ∈ cmd.mapping?, m ∈ known) →
      cmd.Fits (view w) →
        Carried view w (fun r : ExecResult => cmd.Effect M (view w) r.rowsAffected)
          (command (view w) cmd)
          (execute (s.config.dialect.render (cmd.sql s.config.dialect)) cmd.params w)) :
    (s.executing execute).Faithful view M ⟨command, R.question⟩ known where
  executes := hexecutes _
  selects := h.selects
  looksUp := h.looksUp
  lists := h.lists

end Setup.Faithful

end RowLedger
