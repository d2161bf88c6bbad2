import RowLedger.Connection.Rows
import RowLedger.Predicate.Compile

/-! Queries over one table: a condition, sort keys and a window of the rows. -/

namespace RowLedger

structure SortKey where
  field : String
  ascending : Bool
  deriving DecidableEq

structure TableQuery where
  type : RecordType
  mapping : Mapping
  condition : Option Expr := none
  keys : List SortKey := []
  limit : Option Nat := none
  offset : Option Nat := none
  deferred : Bool := false

namespace TableQuery

/-- Conditions add up. -/
def filter (q : TableQuery) (e : Expr) : TableQuery :=
  { q with condition := some (match q.condition with | some c => c.and e | none => e) }

def orderBy (q : TableQuery) (field : String) (ascending : Bool) : TableQuery :=
  { q with keys := q.keys ++ [⟨field, ascending⟩] }

def take (q : TableQuery) (n : Nat) : TableQuery := { q with limit := some n }

def skip (q : TableQuery) (n : Nat) : TableQuery := { q with offset := some n }

def asDeferred (q : TableQuery) : TableQuery := { q with deferred := true }

/-- The condition in a dialect, if there is one. -/
def compiled (q : TableQuery) (d : Dialect) : Except Error (Option Condition) :=
  match q.condition with
  | none => .ok none
  | some e => (compile e q.mapping d).map some

def whereClause : Option Condition → Sql
  | none => []
  | some c => .word " where " :: c.sql

def sortClause (q : TableQuery) : Except Error Sql := do
  if q.keys.isEmpty then return []
  let keys ← q.keys.mapM fun k => do
    let c ← q.mapping.resolve k.field
    return Piece.name c.name :: if k.ascending then [] else [.word " desc"]
  return .word " order by " :: Sql.joined ", " keys

/-- The rows of the table that fulfil the condition, in full. -/
def selection (q : TableQuery) (d : Dialect) (what : String) : Except Error Condition := do
  let c ← q.compiled d
  return ⟨.word ("select " ++ what ++ " from ") :: .name q.mapping.table :: whereClause c,
    (c.map Condition.params).getD []⟩

/-- The rows in order, cut to the window. -/
def select (q : TableQuery) (d : Dialect) : Except Error Condition := do
  let s ← q.selection d "*"
  let sort ← q.sortClause
  return ⟨s.sql ++ sort ++ [.word (d.paging q.limit q.offset (!q.keys.isEmpty))], s.params⟩

end TableQuery

namespace Act

variable {σ : Type}

/-- A query over the table of a record type. -/
def table (t : RecordType) : Act σ TableQuery := do return { type := t, mapping := ← mapping t }

def toList (q : TableQuery) : Act σ (List Entity) := do
  let d ← dialect
  let s ← ofExcept (q.select d)
  queryRecords q.type q.mapping (d.render s.sql) s.params

/-- The records of a query, loaded or still to be read. -/
inductive Records
  | loaded (es : List Entity)
  | deferred (rows : DeferredRows)

def iterate (q : TableQuery) : Act σ Records := do
  if q.deferred then
    let d ← dialect
    let s ← ofExcept (q.select d)
    return .deferred (← openRows q.type q.mapping (d.render s.sql) s.params)
  else return .loaded (← toList q)

def nextOf : Records → Act σ (Option (Except Error Entity) × Records)
  | .loaded [] => return (none, .loaded [])
  | .loaded (e :: es) => return (some (.ok e), .loaded es)
  | .deferred rows => do
    let (r, rows) ← nextRecord rows
    return (r, .deferred rows)

def dropRecords : Records → Act σ Unit
  | .loaded _ => return
  | .deferred rows => dropRows rows

/-- Sort keys and window do not matter for a count. -/
def count (q : TableQuery) : Act σ Nat := do
  let d ← dialect
  let s ← ofExcept (q.selection d "count(*)")
  let v ← executeScalar ⟨.int .i64, false⟩ (d.render s.sql) s.params
  return ((v.int?.map Sized.val).getD 0).toNat

def firstOrDefault (q : TableQuery) : Act σ (Option Entity) := do
  return (← toList (q.take 1)).head?

def orNotFound (table : String) (x : Act σ (Option Entity)) : Act σ Entity := do
  match ← x with
  | some e => return e
  | none => fail (.notFound table)

def first (q : TableQuery) : Act σ Entity := orNotFound q.mapping.table (firstOrDefault q)

def elementAt (q : TableQuery) (i : Nat) : Act σ Entity := first (q.skip i)

/-! Reading by primary key. -/

/-- Without a primary key the first row is read, whatever the key. -/
def byKey (d : Dialect) (m : Mapping) (key : Value) : Except Error Condition := do
  match m.keyColumn? with
  | some c =>
    let stored ← key.toSql
    return ⟨[.word "select * from ", .name m.table, .word " where ", .name c.name, .word " = ",
      .hole c.name], [⟨c.name, stored⟩]⟩
  | none =>
    return ⟨[.word "select * from ", .name m.table, .word (d.paging (some 1) none false)], []⟩

def find (t : RecordType) (key : Value) : Act σ (Option Entity) := do
  let m ← mapping t
  let d ← dialect
  let s ← ofExcept (byKey d m key)
  firstOf (← openRows t m (d.render s.sql) s.params)

def get (t : RecordType) (key : Value) : Act σ Entity := orNotFound t.table (find t key)

def findRow (m : Mapping) (key : Value) : Act σ (Option (List Value)) := do
  let d ← dialect
  let s ← ofExcept (byKey d m key)
  return (← queryValues m (d.render s.sql) s.params).head?

def getRow (m : Mapping) (key : Value) : Act σ (List Value) := do
  match ← findRow m key with
  | some vs => return vs
  | none => fail (.notFound m.table)

def findWhere (t : RecordType) (e : Expr) : Act σ (Option Entity) := do
  firstOrDefault ((← table t).filter e)

def getWhere (t : RecordType) (e : Expr) : Act σ Entity := do first ((← table t).filter e)

/-! Reading by statements of the caller's. -/

def queryAll (t : RecordType) (sql : String) (params : List Param) : Act σ (List Entity) := do
  queryRecords t (← mapping t) sql params

def deferredQuery (t : RecordType) (sql : String) (params : List Param) : Act σ Records := do
  return .deferred (← openRows t (← mapping t) sql params)

def findWithQuery (t : RecordType) (sql : String) (params : List Param) :
    Act σ (Option Entity) := do
  firstOf (← openRows t (← mapping t) sql params)

end Act

end RowLedger
