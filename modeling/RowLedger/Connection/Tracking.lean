import RowLedger.Connection.Definition
import RowLedger.Connection.Insertion
import RowLedger.Connection.Query

/-!
Keeping the ledger: an entry takes the place of an earlier one for the same row, so that the ledger
knows the last thing done to each.
-/

namespace RowLedger.Act

variable {σ : Type}

def initLedger : Act σ Unit := do
  let _ ← createTable (← mapping Ledger.recordType)
  update fun c => { c with ledgerReady := true }

def ensureLedger : Act σ Unit := do
  if !(← state).ledgerReady then initLedger

def ledgerTable : Act σ TableQuery := table Ledger.recordType

def entries (q : TableQuery) : Act σ (List Ledger.Entry) := do
  return (← toList (q.orderBy "id" true)).map Ledger.Entry.ofEntity

/-- The whole ledger, oldest entry first. -/
def history : Act σ (List Ledger.Entry) := do
  ensureLedger
  entries (← ledgerTable)

def ofTable (name : String) : Expr := (Expr.column "table_name").eq (.constant (.text name))

def ofRow (guid : Guid) : Expr := (Expr.column "sync_guid").eq (.constant (.guid guid))

def historyFor (name : String) : Act σ (List Ledger.Entry) := do
  ensureLedger
  entries ((← ledgerTable).filter (ofTable name))

/-- Deletes the rows that fulfil a condition. -/
def deleteRows (m : Mapping) (c : Condition) : Act σ Nat :=
  execCount (.word "delete from " :: .name m.table :: .word " where " :: c.sql) c.params

def removeEntries (e : Expr) : Act σ Nat := do
  let q := (← ledgerTable)
  let c ← ofExcept (compile e q.mapping (← dialect))
  deleteRows q.mapping c

def addEntry (table : String) (row : Guid) (action : Action) : Act σ Unit := do
  let m ← mapping Ledger.recordType
  let (_, r) ← insertRow m (Ledger.Entry.toEntity table row action) .insert
  let _ ← ofExcept r

def writeEntry (table : String) (row : Guid) (action : Action) : Act σ Unit := do
  let _ ← removeEntries (ofRow row)
  addEntry table row action

/-- Enters a change of one row and tells the subscribers. A row without an identifier is told of
but not entered. -/
def recordChange (m : Mapping) (row : Option Guid) (action : Action) : Act σ Unit := do
  if !isLedger m then
    match row with
    | some g =>
      ensureLedger
      writeEntry m.table g action
    | none => pure ()
    notify m action

/-- Enters the deletion of each row and tells the subscribers once. -/
def recordDeleted (m : Mapping) (rows : List Guid) : Act σ Unit := do
  if !isLedger m then
    ensureLedger
    rows.forM fun g => writeEntry m.table g .delete
    notify m .delete

/-- The identifiers in the first cells of the rows; null counts for none. -/
def guidsOf (rows : List Row) : Except Error (List Guid) := do
  let values ← (rows.filterMap List.head?).mapM (Value.ofSql .guid)
  return values.filterMap Value.guid?

/-- The identifiers of the rows that fulfil a condition. -/
def syncGuids (m : Mapping) (condition : Option Condition) : Act σ (List Guid) := do
  let set ← query
    ([.word "select ", .name m.syncColumn.name, .word " from ", .name m.table] ++
      TableQuery.whereClause condition)
    ((condition.map Condition.params).getD [])
  ofExcept (guidsOf set.rows)

/-- Replaces what the ledger knows of a table by one deletion for each row it still has. -/
def recordDeleteAll (m : Mapping) : Act σ Unit := do
  ensureLedger
  let _ ← removeEntries (ofTable m.table)
  (← syncGuids m none).forM fun g => addEntry m.table g .delete

end RowLedger.Act
