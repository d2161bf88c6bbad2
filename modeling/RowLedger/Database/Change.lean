import RowLedger.Database.Query

/-!
Changes to the rows of a table. A row is put in only if no rule of the table forbids it; what
happens otherwise is chosen with the statement.
-/

namespace RowLedger

/-- An insertion whose names are resolved: for each row a term for every column. -/
structure Insertion where
  table : Table
  onConflict : Conflict
  rows : List (List (Term CellRef))

structure Update where
  table : Table
  changes : List (Nat × Term CellRef)
  condition : Option (Term CellRef)

structure Deletion where
  table : Table
  condition : Option (Term CellRef)

/-- What a change leaves: the table, the number of rows, and the last id that was put in. -/
structure Changed where
  table : Table
  /-- The greatest id that the table has used. -/
  greatestId : Int
  count : Nat := 0
  lastId : Option (Sized .i64) := none

namespace Insertion

/-- The terms of a row by columns; a column that is not named holds its fallback. -/
def byColumn (t : Table) (places : List Nat) (terms : List (Term CellRef)) : List (Term CellRef) :=
  (List.range t.columns.length).map fun i =>
    ((places.zip terms).lookup i).getD (.literal (((t.columns[i]?).map (·.fallback)).getD .null))

def ofStatement (d : Database) (onConflict : Conflict) (table : String)
    (columns : Option (List String)) (rows : InsertedRows) : Except Fault Insertion := do
  let some t := d.find? table | throw (.noTable table)
  let places ← match columns with
    | none => pure (List.range t.columns.length)
    | some cs => cs.mapM fun c => match t.find? c with
      | some i => .ok i
      | none => .error (.noNamedColumn t.name c)
  let rows ← match rows with
    | .defaults => pure [[]]
    | .values rows =>
      let resolved ← rows.mapM (Term.resolveAll none false)
      let count := (resolved.head?.map List.length).getD 0
      if resolved.any fun r => r.length != count then throw .unevenRows
      if count ≠ places.length then
        throw (if columns.isSome then .valueCountListed count places.length
          else .valueCount t.name places.length count)
      pure resolved
  return ⟨t, onConflict, rows.map (byColumn t places)⟩

end Insertion

namespace Changed

/-- The id that a value asks for; none for null. -/
def askedId? (d : Datum) : Except Fault (Option (Sized .i64)) :=
  match Affinity.numeric.store d with
  | .null => .ok none
  | .integer n => .ok (some n)
  | _ => .error .mismatch

/-- The next id: greater than all that are there, and with `autoincrement` than all before. -/
def nextId (c : Changed) : Except Fault (Sized .i64) :=
  let greatest := if c.table.autoincrement then max c.greatestId c.table.greatestId
    else c.table.greatestId
  match Sized.ofInt? .i64 (greatest + 1) with
  | some n => .ok n
  | none => .error .full

/-- What the cells store, the id being in its own. -/
def stored (t : Table) (id : Sized .i64) (cells : List Datum) : StoredRow :=
  let store (c : StoredColumn) (d : Datum) : Datum := c.affinity.store d
  let cells := List.zipWith store t.columns cells
  ⟨id, match t.idColumn with
    | some i => cells.set i (.integer id)
    | none => cells⟩

/-- The first column that must not be null and is. -/
def nullColumn? (t : Table) (r : StoredRow) : Option (Nat × StoredColumn) :=
  ((List.range t.columns.length).zip (t.columns.zip r.cells)).findSome? fun (i, c, d) =>
    if c.notNull && d.isNull then some (i, c) else none

/-- Fills columns that must not be null from their fallbacks. -/
def filled (t : Table) (r : StoredRow) : StoredRow :=
  let fill (c : StoredColumn) (d : Datum) : Datum := if c.notNull && d.isNull then c.fallback else d
  { r with cells := List.zipWith fill t.columns r.cells }

/-- The rows that stand in the way of a row, with the fault that each is: one with its id, then
one for each unique index. -/
def obstacles (t : Table) (r : StoredRow) (idAsked : Bool) : List (StoredRow × Fault) :=
  let sameId := if idAsked then t.rows.find? (·.id == r.id) else none
  let idFault := Fault.notUnique [t.name ++ "." ++
    ((t.idColumn.bind (t.columns[·]?)).map (·.name)).getD "rowid"]
  (sameId.map (·, idFault)).toList ++ t.indexes.filterMap fun i =>
    (t.clash? i r).map fun x => (x, match t.qualified i with
      | some cs => .notUnique cs
      | none => .notUniqueIndex i.name)

def accept (c : Changed) (r : StoredRow) : Changed :=
  { c with table := c.table.add r, count := c.count + 1, lastId := some r.id }

/-- Puts a row in, unless something is in its way: then nothing is changed, or the row is left out,
or what is in its way goes. -/
def insertRow (onConflict : Conflict) (c : Changed) (cells : List Datum) :
    Except Fault Changed := do
  let asked ← match c.table.idColumn with
    | some i => askedId? ((cells[i]?).getD .null)
    | none => pure none
  let id ← match asked with
    | some id => pure id
    | none => c.nextId
  let c := { c with greatestId := max c.greatestId id.val }
  let r := stored c.table id cells
  let r := if onConflict = .replace then filled c.table r else r
  match onConflict, nullColumn? c.table r, obstacles c.table r asked.isSome with
  | .ignore, some _, _ => return c
  | _, some (_, column), _ => throw (.nullColumn (c.table.name ++ "." ++ column.name))
  | _, none, [] => return c.accept r
  | .abort, none, (_, e) :: _ => throw e
  | .ignore, none, _ :: _ => return c
  | .replace, none, os =>
    let table := os.foldl (fun (t : Table) o => t.remove o.1.id) c.table
    return { c with table }.accept r

/-- Changes one row in its place. -/
def updateRow (changes : List (Nat × Term CellRef)) (ps : List Datum) (c : Changed)
    (old : StoredRow) : Except Fault Changed := do
  let values ← changes.mapM fun (i, t) => do return (i, ← t.eval ps (some old))
  let cells := values.foldl (fun cells (i, d) => cells.set i d) old.cells
  let id ← match c.table.idColumn with
    | none => pure old.id
    | some i => match ← askedId? ((cells[i]?).getD .null) with
      | some id => pure id
      | none => throw .mismatch
  let r := stored c.table id cells
  if let some (_, column) := nullColumn? c.table r then
    throw (.nullColumn (c.table.name ++ "." ++ column.name))
  let t := c.table.remove old.id
  match obstacles t r (id != old.id) with
  | (_, e) :: _ => throw e
  | [] => return { c with table := t.add r, count := c.count + 1 }

end Changed

variable (ps : List Datum)

/-- The rows for which a condition holds. -/
def Table.matching (t : Table) (condition : Option (Term CellRef)) :
    Except Fault (List StoredRow) :=
  (t.visited condition (List.range t.columns.length)).filterM fun r =>
    Query.holds ps condition (some r)

def Insertion.run (i : Insertion) (greatestId : Int) : Except Fault Changed := do
  i.rows.foldlM (fun c terms => do
    let cells ← Term.evalAll ps none terms
    c.insertRow i.onConflict cells) ⟨i.table, greatestId, 0, none⟩

namespace Update

def ofStatement (d : Database) (table : String) (changes : List (String × NamedTerm))
    (condition : Option NamedTerm) : Except Fault Update := do
  let some t := d.find? table | throw (.noTable table)
  let changes ← changes.mapM fun (c, e) => do
    let e ← e.resolve (some t) false
    match t.find? c with
    | some i => return (i, e)
    | none => throw (.noColumn c)
  return ⟨t, changes, ← Query.resolveOne (some t) condition⟩

def run (u : Update) (greatestId : Int) : Except Fault Changed := do
  let rows ← u.table.matching ps u.condition
  rows.foldlM (fun c r => c.updateRow u.changes ps r) ⟨u.table, greatestId, 0, none⟩

end Update

namespace Deletion

def ofStatement (d : Database) (table : String) (condition : Option NamedTerm) :
    Except Fault Deletion := do
  let some t := d.find? table | throw (.noTable table)
  return ⟨t, ← Query.resolveOne (some t) condition⟩

def run (x : Deletion) (greatestId : Int) : Except Fault Changed := do
  let rows ← x.table.matching ps x.condition
  let t := rows.foldl (fun (t : Table) r => t.remove r.id) x.table
  return ⟨t, greatestId, rows.length, none⟩

end Deletion

end RowLedger
