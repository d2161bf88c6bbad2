import RowLedger.Database.Statement
import RowLedger.Driver

/-! Tables: their columns, their indexes and their rows, which stand in the order of their ids. -/

namespace RowLedger

structure StoredColumn where
  name : String
  type : String
  collation : Collation := .binary
  notNull : Bool := false
  fallback : Datum := .null
  /-- How the fallback was written. -/
  fallbackText : Option String := none
  /-- The place in the primary key, counted from one; zero outside it. -/
  keyRank : Nat := 0
  deriving DecidableEq

def StoredColumn.affinity (c : StoredColumn) : Affinity := .ofType c.type

structure TableIndex where
  name : String
  /-- The places of its columns; none for a text that names no column. -/
  parts : List (Option Nat)
  isUnique : Bool
  deriving DecidableEq

structure StoredRow where
  id : Sized .i64
  cells : List Datum
  deriving DecidableEq

structure Table where
  name : String
  columns : List StoredColumn
  /-- The place of the column that is the id of the row. -/
  idColumn : Option Nat := none
  /-- Is no id used twice? -/
  autoincrement : Bool := false
  /-- The newest first. -/
  indexes : List TableIndex := []
  rows : List StoredRow := []
  deriving DecidableEq

structure Database where
  tables : List Table := []
  /-- The greatest id that each table with `autoincrement` has used. -/
  greatestIds : List (String × Int) := []
  deriving DecidableEq

/-- The native type by which a declared one is shown: the first of these words that it contains. -/
def NativeType.ofDeclared (type : String) : NativeType :=
  let type := Text.foldAscii type
  let has (word : String) : Bool := Text.occursIn word.toList type
  let is (word : String) : Bool := type == word.toList
  if has "int" || is "bool" || is "boolean" then .integer
  else if is "date" || is "time" || is "datetime" || is "timestamp" then .text
  else if has "char" || has "clob" || has "text" then .text
  else if has "blob" then .blob
  else if has "real" || has "floa" || has "doub" then .real
  else .null

/-- What a term reads of a row: a cell or the id. -/
structure CellRef where
  place : Option Nat
  name : String
  type : String
  affinity : Affinity
  collation : Collation
  deriving DecidableEq

namespace Table

def find? (t : Table) (column : String) : Option Nat :=
  t.columns.findIdx? fun c => Text.sameName c.name column

def cellRefAt? (t : Table) (i : Nat) : Option CellRef :=
  (t.columns[i]?).map fun c => ⟨some i, c.name, c.type, c.affinity, c.collation⟩

def idNames : List String := ["rowid", "oid", "_rowid_"]

/-- What a name stands for. The id of a row has names of its own. -/
def cellRef? (t : Table) (c : ColumnName) : Option CellRef :=
  if (c.table.map (Text.sameName t.name)).getD true then
    match t.find? c.name with
    | some i => t.cellRefAt? i
    | none =>
      if idNames.any (Text.sameName c.name) then
        match t.idColumn with
        | some i => t.cellRefAt? i
        | none => some ⟨none, "rowid", "INTEGER", .integer, .binary⟩
      else none
  else none

def cellRefs (t : Table) : List CellRef := (List.range t.columns.length).filterMap t.cellRefAt?

def greatestId (t : Table) : Int := ((t.rows.getLast?).map (·.id.val)).getD 0

/-- Puts a row into its place. -/
def add (t : Table) (r : StoredRow) : Table :=
  let before := t.rows.takeWhile fun x => x.id.val < r.id.val
  let after := t.rows.dropWhile fun x => x.id.val < r.id.val
  { t with rows := before ++ r :: after }

def remove (t : Table) (id : Sized .i64) : Table :=
  { t with rows := t.rows.filter fun r => r.id != id }

def collationAt (t : Table) (i : Nat) : Collation :=
  ((t.columns[i]?).map StoredColumn.collation).getD .binary

def indexKey (i : TableIndex) (r : StoredRow) : List Datum :=
  i.parts.map fun p => (p.bind (r.cells[·]?)).getD (.ofInt 0)

/-- How the keys of two rows stand in an index. -/
def compareKeys (t : Table) (i : TableIndex) (a b : StoredRow) : Ordering :=
  (i.parts.zip ((indexKey i a).zip (indexKey i b))).foldl
    (fun o (p, x, y) => o.then (x.order ((p.map t.collationAt).getD .binary) y)) .eq

/-- The rows as they stand in an index. -/
def rowsBy (t : Table) (i : TableIndex) : List StoredRow :=
  t.rows.mergeSort fun a b => t.compareKeys i a b != .gt

/-- Another row with the same key in a unique index. Keys with a null are never the same. -/
def clash? (t : Table) (i : TableIndex) (r : StoredRow) : Option StoredRow :=
  if !i.isUnique || (indexKey i r).any Datum.isNull then none
  else t.rows.find? fun x => x.id != r.id && t.compareKeys i x r == .eq

/-- The columns of a unique index as a refusal names them. -/
def qualified (t : Table) (i : TableIndex) : Option (List String) :=
  i.parts.mapM fun p => do return t.name ++ "." ++ (← t.columns[← p]?).name

end Table

namespace Database

def find? (d : Database) (table : String) : Option Table :=
  d.tables.find? fun t => Text.sameName t.name table

def hasIndex (d : Database) (name : String) : Bool :=
  d.tables.any fun t => t.indexes.any fun i => Text.sameName i.name name

/-- Puts a changed table in the place of the one of its name. -/
def put (d : Database) (t : Table) : Database :=
  { d with tables := d.tables.map fun x => if x.name == t.name then t else x }

def greatestIdUsed (d : Database) (table : String) : Int := (d.greatestIds.lookup table).getD 0

def recordId (d : Database) (table : String) (id : Int) : Database :=
  let greatest := max id (d.greatestIdUsed table)
  { d with greatestIds := (table, greatest) :: d.greatestIds.filter fun e => e.1 != table }

end Database

end RowLedger
