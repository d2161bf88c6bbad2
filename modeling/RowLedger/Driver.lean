import RowLedger.Error

/-!
What a connection needs of a database: statements with bound parameters in, outcomes and rows out.
A driver acts on a state of its own, which it may change also when it fails.
-/

namespace RowLedger

structure ExecResult where
  rowsAffected : Nat := 0
  /-- The row id that the last insert generated, where one is reported. -/
  lastId : Option (Sized .i64) := none
  deriving DecidableEq

structure ResultColumn where
  name : String
  native : NativeType
  deriving DecidableEq

abbrev Row := List SqlValue

structure ResultSet where
  columns : List ResultColumn := []
  rows : List Row := []
  deriving DecidableEq

namespace ResultSet

def value? (r : ResultSet) (row column : Nat) : Option SqlValue := (r.rows[row]?).bind (·[column]?)

/-- The first value of the first row, or null. -/
def scalar (r : ResultSet) : SqlValue := (r.rows.head?.bind List.head?).getD .null

end ResultSet

/-- A query whose rows are read one by one: those loaded already, or those that the driver keeps
under a number. -/
structure Cursor where
  id : Nat := 0
  columns : List ResultColumn := []
  loaded : List Row := []
  deriving DecidableEq

namespace Cursor

def ofResult (r : ResultSet) : Cursor := ⟨0, r.columns, r.rows⟩

def streaming (id : Nat) (columns : List ResultColumn) : Cursor := ⟨id, columns, []⟩

/-- The next loaded row, and the cursor after it. -/
def pop (c : Cursor) : Option Row × Cursor := (c.loaded.head?, { c with loaded := c.loaded.tail })

end Cursor

/-- An answer together with the state it leaves. -/
abbrev Reply (σ α : Type) := Except StorageError α × σ

structure Driver (σ : Type) where
  execute : String → List Param → σ → Reply σ ExecResult
  query : String → List Param → σ → Reply σ ResultSet
  scalar : String → List Param → σ → Reply σ SqlValue
  openCursor : String → List Param → σ → Reply σ Cursor
  nextRow : Cursor → σ → Reply σ (Option Row × Cursor)
  closeCursor : Cursor → σ → Cursor × σ
  isOpen : σ → Bool
  close : σ → Reply σ Unit

namespace Driver

variable {σ : Type}

/-- A driver that loads every result at once. -/
def buffered (execute : String → List Param → σ → Reply σ ExecResult)
    (query : String → List Param → σ → Reply σ ResultSet)
    (isOpen : σ → Bool) (close : σ → Reply σ Unit) : Driver σ where
  execute
  query
  scalar sql params s :=
    let (r, s) := query sql params s
    (r.map ResultSet.scalar, s)
  openCursor sql params s :=
    let (r, s) := query sql params s
    (r.map Cursor.ofResult, s)
  nextRow c s := (.ok c.pop, s)
  closeCursor c s := ({ c with loaded := [] }, s)
  isOpen
  close

end Driver

end RowLedger
