import RowLedger.Connection.Basic

/-! Rows of a result as records: columns are matched by name once, then each row is decoded. -/

namespace RowLedger

namespace RowPlan

/-- For each column of a result the mapped column of that name, up to ASCII case. -/
def targets (m : Mapping) (columns : List ResultColumn) : List (Option Nat) :=
  columns.map fun c => m.position? c.name

/-- The cells that are not null, with the mapped columns they belong to. -/
def cells (targets : List (Option Nat)) (row : Row) : List (Nat × SqlValue) :=
  (targets.zip row).filterMap fun (t, v) => if v.isNull then none else t.map fun i => (i, v)

def decode (m : Mapping) (i : Nat) (v : SqlValue) : Except Error Value :=
  match m.column? i with
  | some c => Value.ofSql c.kind v
  | none => .ok .null

/-- A fresh record with the cells written into it; a later cell of a column wins. -/
def materialize (t : RecordType) (m : Mapping) (targets : List (Option Nat)) (row : Row) :
    Except Error Entity :=
  (cells targets row).foldlM (fun e (i, v) => do m.set e i (← decode m i v)) (Entity.fresh t)

/-- One value for each mapped column, null where the row has none. -/
def values (m : Mapping) (targets : List (Option Nat)) (row : Row) : Except Error (List Value) :=
  (cells targets row).foldlM (fun vs (i, v) => do return vs.set i (← decode m i v))
    (List.replicate m.columns.length .null)

end RowPlan

/-- The rows of a query that are read one at a time. -/
structure DeferredRows where
  type : RecordType
  mapping : Mapping
  cursor : Cursor
  done : Bool := false

namespace Act

variable {σ : Type}

def nextRow (c : Cursor) : Act σ (Option Row × Cursor) := call fun d => d.nextRow c

def closeCursor (c : Cursor) : Act σ Cursor :=
  call fun d w => let (c, w) := d.closeCursor c w; (.ok c, w)

def openRows (t : RecordType) (m : Mapping) (sql : String) (params : List Param) :
    Act σ DeferredRows := do
  return ⟨t, m, ← call fun d => d.openCursor sql params, false⟩

/-- The next record or failure. A row that cannot be decoded does not end the rows; a row that
cannot be read does, and so does the last one. -/
def nextRecord (rows : DeferredRows) : Act σ (Option (Except Error Entity) × DeferredRows) := do
  if rows.done then return (none, rows)
  match ← attempt (nextRow rows.cursor) with
  | .ok (some row, cursor) =>
    let targets := RowPlan.targets rows.mapping cursor.columns
    return (some (RowPlan.materialize rows.type rows.mapping targets row), { rows with cursor })
  | .ok (none, cursor) => return (none, { rows with cursor, done := true })
  | .error e =>
    let cursor ← closeCursor rows.cursor
    return (some (.error e), { rows with cursor, done := true })

/-- Abandons rows that were not read to their end. -/
def dropRows (rows : DeferredRows) : Act σ Unit := do
  if !rows.done then
    let _ ← closeCursor rows.cursor

/-- The first record only. -/
def firstOf (rows : DeferredRows) : Act σ (Option Entity) := do
  let (r, rows) ← nextRecord rows
  dropRows rows
  match r with
  | none => return none
  | some r => return some (← ofExcept r)

/-- All records of a query. -/
def queryRecords (t : RecordType) (m : Mapping) (sql : String) (params : List Param) :
    Act σ (List Entity) := do
  let set ← queryText sql params
  let targets := RowPlan.targets m set.columns
  ofExcept (set.rows.mapM (RowPlan.materialize t m targets))

/-- All rows of a query as lists of values. -/
def queryValues (m : Mapping) (sql : String) (params : List Param) :
    Act σ (List (List Value)) := do
  let set ← queryText sql params
  let targets := RowPlan.targets m set.columns
  ofExcept (set.rows.mapM (RowPlan.values m targets))

/-- A value as a field of some type would hold it. -/
def typed (t : FieldType) (raw : SqlValue) : Except Error Value := do
  t.read (← Value.ofSql t.kind raw)

def executeScalar (t : FieldType) (sql : String) (params : List Param) : Act σ Value := do
  ofExcept (typed t (← scalarText sql params))

/-- The first value of every row. -/
def queryScalars (t : FieldType) (sql : String) (params : List Param) : Act σ (List Value) := do
  let set ← queryText sql params
  ofExcept (set.rows.mapM fun row => typed t (row.head?.getD .null))

def anyRow (sql : String) (params : List Param) : Act σ Bool := do
  return !(← queryText sql params).rows.isEmpty

end Act

end RowLedger
