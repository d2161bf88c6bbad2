import RowLedger.Database.Change
import RowLedger.Database.Definition
import RowLedger.Database.Grammar

/-!
The engine: carries out statements one after the other. A transaction keeps the database as it was
when it began, and so does each savepoint in it.
-/

namespace RowLedger

structure Transaction where
  before : Database
  /-- Was it begun by a savepoint, with whose release it ends? -/
  bySavepoint : Bool
  /-- The newest first. -/
  savepoints : List (String × Database) := []
  deriving DecidableEq

structure Engine where
  data : Database := {}
  transaction : Option Transaction := none
  /-- The id that the last insertion gave, and the number of rows that the last change touched. -/
  lastId : Sized .i64 := .zero .i64
  changes : Nat := 0
  deriving DecidableEq

/-- A statement whose names have a meaning in the database as it is. -/
inductive Plan
  | query (q : Query)
  /-- Rows that are known beforehand. -/
  | known (columns : List ResultColumn) (rows : List (List Datum))
  | insert (i : Insertion)
  | update (u : Update)
  | delete (x : Deletion)
  | define (after : Except Fault Database)
  | begin
  | commit
  | rollback
  | savepoint (name : String)
  | release (name : String)
  | rollbackTo (name : String)
  | nothing

namespace Plan

def columns : Plan → List ResultColumn
  | query q => q.columns
  | known columns _ => columns
  | _ => []

def infoColumns : List ResultColumn :=
  ["cid", "name", "type", "notnull", "dflt_value", "pk"].map fun n => ⟨n, .null⟩

/-- The columns of a table, one in each row. -/
def tableInfo (t : Table) : List (List Datum) :=
  t.columns.zipIdx.map fun (c, i) =>
    [ .ofInt i, .text c.name, .text c.type, .ofBool c.notNull,
      (c.fallbackText.map Datum.text).getD .null, .ofInt c.keyRank ]

def ofStatement (d : Database) : Statement → Except Fault Plan
  | .select s => query <$> Query.ofSelection d s
  | .tableInfo t => .ok (known infoColumns (((d.find? t).map tableInfo).getD []))
  | .insert c t columns rows => insert <$> Insertion.ofStatement d c t columns rows
  | .update t changes c => update <$> Update.ofStatement d t changes c
  | .delete t c => delete <$> Deletion.ofStatement d t c
  | .createTable ifAbsent name columns rules =>
    (define ∘ .ok) <$> d.createTable ifAbsent name columns rules
  | .createIndex isUnique ifAbsent name table columns =>
    define <$> d.createIndex isUnique ifAbsent name table columns
  | .addColumn t c => define <$> d.addColumn t c
  | .dropTable ifPresent name => (define ∘ .ok) <$> d.dropTable ifPresent name
  | .dropIndex ifPresent name => (define ∘ .ok) <$> d.dropIndex ifPresent name
  | .begin => .ok begin
  | .commit => .ok commit
  | .rollback => .ok rollback
  | .savepoint s => .ok (savepoint s)
  | .release s => .ok (release s)
  | .rollbackTo s => .ok (rollbackTo s)
  | .setting => .ok nothing

end Plan

namespace Engine

/-- What is kept if nothing more is committed. -/
def committed (e : Engine) : Database := (e.transaction.map (·.before)).getD e.data

def begin (e : Engine) : Except Fault Engine :=
  if e.transaction.isSome then .error .transactionOpen
  else .ok { e with transaction := some ⟨e.data, false, []⟩ }

def commit (e : Engine) : Except Fault Engine :=
  if e.transaction.isSome then .ok { e with transaction := none }
  else .error (.noTransaction "commit")

def rollback (e : Engine) : Except Fault Engine :=
  match e.transaction with
  | some t => .ok { e with data := t.before, transaction := none }
  | none => .error (.noTransaction "rollback")

/-- Outside a transaction a savepoint begins one. -/
def savepoint (name : String) (e : Engine) : Engine :=
  let t := e.transaction.getD ⟨e.data, true, []⟩
  { e with transaction := some { t with savepoints := (name, e.data) :: t.savepoints } }

/-- The transaction, the database as a savepoint keeps it, and the savepoints before it. -/
def find? (name : String) (e : Engine) :
    Option (Transaction × Database × List (String × Database)) :=
  e.transaction.bind fun t =>
    match t.savepoints.dropWhile fun s => !Text.sameName s.1 name with
    | (_, d) :: older => some (t, d, older)
    | [] => none

/-- Forgets a savepoint and the ones after it. -/
def release (name : String) (e : Engine) : Except Fault Engine :=
  match e.find? name with
  | none => .error (.noSavepoint name)
  | some (t, _, older) =>
    .ok { e with transaction :=
      if older.isEmpty && t.bySavepoint then none else some { t with savepoints := older } }

/-- Goes back to a savepoint, which stays. -/
def rollbackTo (name : String) (e : Engine) : Except Fault Engine :=
  match e.find? name with
  | none => .error (.noSavepoint name)
  | some (t, d, older) =>
    .ok { e with data := d, transaction := some { t with savepoints := (name, d) :: older } }

/-- Takes over what a change leaves; a change that fails has touched no row. -/
def changed (e : Engine) (table : Table) (run : Int → Except Fault Changed) : Yield × Engine :=
  match run (e.data.greatestIdUsed table.name) with
  | .error fault => (.ofFault fault, { e with changes := 0 })
  | .ok c =>
    let data := e.data.put c.table
    let data := if table.autoincrement then data.recordId table.name c.greatestId else data
    ({}, { e with data, changes := c.count, lastId := c.lastId.getD e.lastId })

def stepped (e : Engine) : Except Fault Engine → Yield × Engine
  | .ok e => ({}, e)
  | .error fault => (.ofFault fault, e)

def run (p : Plan) (ps : List Datum) (e : Engine) : Yield × Engine :=
  match p with
  | .query q => (q.run ps, e)
  | .known _ rows => ({ rows }, e)
  | .insert i => e.changed i.table (i.run ps)
  | .update u => e.changed u.table (u.run ps)
  | .delete x => e.changed x.table (x.run ps)
  | .define after => e.stepped (after.map fun data => { e with data })
  | .begin => e.stepped e.begin
  | .commit => e.stepped e.commit
  | .rollback => e.stepped e.rollback
  | .savepoint s => ({}, e.savepoint s)
  | .release s => e.stepped (e.release s)
  | .rollbackTo s => e.stepped (e.rollbackTo s)
  | .nothing => ({}, e)

end Engine

end RowLedger
