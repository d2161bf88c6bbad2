import RowLedger.Connection.Rows
import RowLedger.Sql.Definition

/-! Creating, migrating and dropping tables and indexes. -/

namespace RowLedger

inductive TableOutcome
  | created
  /-- The table was there; missing columns were added. -/
  | migrated
  deriving DecidableEq, Repr

structure ColumnInfo where
  name : String
  notNull : Bool
  deriving DecidableEq

namespace Act

variable {σ : Type}

def isOne : SqlValue → Bool
  | .int n => n.val == 1
  | .bigInt n => n.val == 1
  | _ => false

/-- The named columns in a listing; nothing if it has no column of names. -/
def columnInfos (set : ResultSet) : List ColumnInfo :=
  let position (name : String) : Option Nat :=
    set.columns.findIdx? fun c => Text.sameName c.name name
  match position "name" with
  | none => []
  | some name =>
    set.rows.filterMap fun row =>
      match row[name]? with
      | some (SqlValue.text s) =>
        some ⟨s, (((position "notnull").bind fun i => row[i]?).map isOne).getD false⟩
      | _ => none

def tableInfo (table : String) : Act σ (List ColumnInfo) := do
  return columnInfos (← query ((← dialect).tableInfo table) [])

def issue (sql : Sql) : Act σ Unit := do
  let _ ← exec sql []

/-- A column that has to be unique gets an index of its own. -/
def addColumn (m : Mapping) (c : Column) : Act σ Unit := do
  let d ← dialect
  issue (d.addColumn m.table c)
  if c.isUnique then
    issue (d.createIndex ⟨Index.defaultName m.table c.name, m.table, true, [c.name]⟩)

def missingColumns (m : Mapping) (existing : List ColumnInfo) : List Column :=
  m.columns.filter fun c => !existing.any fun i => Text.sameName i.name c.name

/-- Creates the table or adds the columns it lacks, then creates the indexes. -/
def createTable (m : Mapping) : Act σ TableOutcome := do
  let d ← dialect
  let existing ← tableInfo m.table
  let outcome ← if existing.isEmpty then do
      issue (d.createTable m)
      pure TableOutcome.created
    else do
      (missingColumns m existing).forM (addColumn m)
      pure TableOutcome.migrated
  (← ofExcept m.indexes).forM fun i => issue (d.createIndex i)
  return outcome

/-- Creates tables one after the other, with the outcome of each. -/
def createTables : List Mapping → Act σ (List (String × TableOutcome))
  | [] => return []
  | m :: ms => do
    let outcome ← createTable m
    return (m.table, outcome) :: (← createTables ms)

def dropTable (m : Mapping) : Act σ Nat := do
  let count ← execCount (Dialect.dropTable m.table) []
  if m.table = Ledger.tableName then update fun c => { c with ledgerReady := false }
  return count

/-- Without a name the index is named after its table and columns. -/
def createIndex (name : Option String) (table : String) (columns : List String) (unique : Bool) :
    Act σ Unit := do
  let name := name.getD (table ++ "_" ++ String.intercalate "_" columns)
  issue ((← dialect).createIndex ⟨name, table, unique, columns⟩)

def createIndexOn (t : RecordType) (field : String) (unique : Bool) : Act σ Unit := do
  let m ← mapping t
  let c ← ofExcept (m.resolve field)
  createIndex none m.table [c.name] unique

/-- Issues a statement if the dialect has it. -/
def issueIfAny (sql : Option Sql) : Act σ Bool := do
  match sql with
  | some sql => issue sql; return true
  | none => return false

def createDatabase (name : String) : Act σ Bool := do
  issueIfAny ((← dialect).createDatabase? name)

def changeCatalog (name : String) : Act σ Bool := do
  issueIfAny ((← dialect).changeCatalog? name)

end Act

end RowLedger
