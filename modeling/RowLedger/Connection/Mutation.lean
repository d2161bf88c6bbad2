import RowLedger.Connection.Tracking
import RowLedger.Connection.Transaction

/-!
Inserting, updating and deleting records, with an entry in the ledger for each row that changed. An
action that writes into a record returns the record also when it fails.
-/

namespace RowLedger.Act

variable {σ : Type}

/-- A record as far as an action got, and the number of rows or the failure. -/
abbrev Written := Entity × Except Error Nat

def insert (e : Entity) (mode : InsertMode) : Act σ Written := do
  match ← attempt (mapping e.type) with
  | .error err => return (e, .error err)
  | .ok m =>
    match ← insertRow m e mode with
    | (e, .error err) => return (e, .error err)
    | (e, .ok (_, 0)) => return (e, .ok 0)
    | (e, .ok (guid, n + 1)) =>
      return (e, ← attempt (do recordChange m (some guid) .insert; return n + 1))

/-- The columns and the key that an update binds. Without other columns the key is set to itself. -/
def assigned (m : Mapping) (key : Nat) : List Nat :=
  if m.updateColumns.isEmpty then [key] else m.updateColumns

def assignment (c : Column) : Sql := [.name c.name, .word " = ", .hole c.name]

def updateStatement (m : Mapping) (positions : List Nat) (key : String) : Sql :=
  .word "update " :: .name m.table :: .word " set " ::
    Sql.joined ", " ((m.columnsAt positions).map assignment) ++
    [.word " where ", .name key, .word " = ", .hole key]

/-- The stored identifier of the row with a key. -/
def readSync (m : Mapping) (key : Param) : Act σ (Option Guid) := do
  let v ← scalar
    [.word "select ", .name m.syncColumn.name, .word " from ", .name m.table, .word " where ",
      .name key.name, .word " = ", .hole key.name] [key]
  return (← ofExcept (Value.ofSql .guid v)).guid?

/-- Gives an identifier to a row that was stored before its table was tracked. -/
def assignSync (m : Mapping) (key : Param) : Act σ Guid := do
  let guid ← drawGuid
  let stored ← ofExcept (Value.guid guid).toSql
  let _ ← exec (updateStatement m [m.sync] key.name) [⟨m.syncColumn.name, stored⟩, key]
  return guid

/-- Updates the row of a record and returns the row count with the key that was bound. -/
def updateRow (m : Mapping) (key : Nat) (e : Entity) : Act σ (Nat × Param) := do
  let positions := assigned m key
  let params ← ofExcept (positions.mapM fun i => m.param i (m.get e i))
  let k ← ofExcept (m.param key (m.get e key))
  return (← execCount (updateStatement m positions k.name) (params ++ [k]), k)

/-- The identifier of the row after an update. -/
def ensureSync (m : Mapping) (key : Param) : Act σ Guid := do
  match ← readSync m key with
  | some g => return g
  | none => assignSync m key

/-- Updates the row with the key of the record. -/
def modify (e : Entity) : Act σ Written := do
  match ← attempt (mapping e.type) with
  | .error err => return (e, .error err)
  | .ok m =>
    match m.key with
    | none => return (e, .error (.noPrimaryKey m.table .update))
    | some key =>
      match ← attempt (updateRow m key e) with
      | .error err => return (e, .error err)
      | .ok (0, _) => return (e, .ok 0)
      | .ok (n + 1, k) =>
        match ← attempt (do
          let g ← ensureSync m k
          return (g, ← ofExcept (m.set e m.sync (.guid g)))) with
        | .error err => return (e, .error err)
        | .ok (g, e) =>
          return (e, ← attempt (do recordChange m (some g) .update; return n + 1))

/-- Applies an action to records one after the other, up to the first failure. -/
def eachOf (f : Entity → Act σ Written) : List Entity → Act σ (List Entity × Except Error Nat)
  | [] => return ([], .ok 0)
  | e :: es => do
    match ← f e with
    | (e, .error err) => return (e :: es, .error err)
    | (e, .ok n) =>
      let (es, r) ← eachOf f es
      return (e :: es, r.map (n + ·))

/-- All records or none, if the batch is to be a transaction. -/
def batch (f : Entity → Act σ Written) (es : List Entity) (inTransaction : Bool) :
    Act σ (List Entity × Except Error Nat) :=
  if inTransaction then keepingInTransaction es (eachOf f es) else eachOf f es

def insertAll (es : List Entity) (mode : InsertMode) (inTransaction : Bool) :
    Act σ (List Entity × Except Error Nat) :=
  batch (insert · mode) es inTransaction

def modifyAll (es : List Entity) (inTransaction : Bool) :
    Act σ (List Entity × Except Error Nat) :=
  batch modify es inTransaction

/-! Deleting. -/

def deleteByValue (m : Mapping) (v : Value) : Act σ Nat := do
  match m.keyColumn? with
  | none => fail (.noPrimaryKey m.table .delete)
  | some c =>
    let key : Param := ⟨c.name, ← ofExcept v.toSql⟩
    let guid ← readSync m key
    let count ← execCount
      [.word "delete from ", .name m.table, .word " where ", .name c.name, .word " = ",
        .hole c.name] [key]
    if 0 < count then recordChange m guid .delete
    return count

def deleteByKey (t : RecordType) (v : Value) : Act σ Nat := do deleteByValue (← mapping t) v

def delete (e : Entity) : Act σ Nat := do
  let m ← mapping e.type
  match m.keyValue? e with
  | none => fail (.noPrimaryKey m.table .delete)
  | some v => deleteByValue m v

/-- Empties a table and replaces what the ledger knows of it. -/
def deleteAllOf (m : Mapping) : Act σ Nat :=
  runInTransaction do
    if !isLedger m then recordDeleteAll m
    let count ← execCount [.word "delete from ", .name m.table] []
    if 0 < count then notify m .delete
    return count

def deleteAll (t : RecordType) : Act σ Nat := do deleteAllOf (← mapping t)

/-- Deletes the rows of a query and enters each deletion. -/
def deleteMatching (m : Mapping) (c : Condition) : Act σ Nat := do
  let guids ← if isLedger m then pure [] else syncGuids m (some c)
  let count ← deleteRows m c
  if 0 < count then recordDeleted m guids
  return count

/-- Only a condition says which rows go; a window does not. -/
def deleteQuery (q : TableQuery) : Act σ Nat := do
  if q.limit.isSome || q.offset.isSome then fail (.invalidOperation .deleteWithPaging)
  else match ← ofExcept (q.compiled (← dialect)) with
    | none => fail (.invalidOperation .deleteWithoutCondition)
    | some c => deleteMatching q.mapping c

end RowLedger.Act
