import RowLedger.Database.Engine

/-!
A database behind a driver. A statement is prepared once and keeps the columns that it had then,
also when the schema has changed since. The rows of a cursor that is being read are put aside when
another statement comes.
-/

namespace RowLedger

/-- The rows that a cursor has still to read. The last may be a failure. -/
abbrev Unread := List (Except StorageError Row)

structure Store where
  engine : Engine := {}
  isOpen : Bool := true
  /-- A row that is wider than its statement was when it was prepared ends all work. -/
  crashed : Bool := false
  /-- The columns of each prepared statement by the text, the latest used first. -/
  prepared : List (String × List (List ResultColumn)) := []
  stepping : Option (Nat × Unread) := none
  parked : List (Nat × Unread) := []
  lastCursor : Nat := 0

namespace Store

/-- The statements of a text on their way: what they have left and yielded so far. -/
structure Progress where
  engine : Engine
  /-- The columns with which the first statements were prepared. -/
  columns : List (List ResultColumn)
  rows : List (List Datum) := []
  changes : Nat := 0
  lastId : Sized .i64 := .zero .i64
  fault : Option Fault := none
  crashed : Bool := false

namespace Progress

def isOver (p : Progress) : Bool := p.fault.isSome || p.crashed

/-- Prepares a statement that was not prepared before. -/
def prepare (p : Progress) (i : Nat) (s : Except Fault Statement) : Progress :=
  if p.isOver || (p.columns[i]?).isSome then p
  else match s.bind (Plan.ofStatement p.engine.data) with
    | .error e => { p with fault := some e }
    | .ok plan => { p with columns := p.columns ++ [plan.columns] }

/-- Carries a statement out. -/
def run (ps : List Datum) (p : Progress) (i : Nat) (s : Except Fault Statement) : Progress :=
  let p := p.prepare i s
  if p.isOver then p
  else match s.bind (Plan.ofStatement p.engine.data) with
    | .error e => { p with fault := some e }
    | .ok plan =>
      let (y, engine) := p.engine.run plan ps
      let width := ((p.columns[i]?).getD []).length
      if width < plan.columns.length && !y.rows.isEmpty then { p with engine, crashed := true }
      else { p with
        engine
        rows := p.rows ++ y.rows
        changes := p.changes + engine.changes
        lastId := engine.lastId
        fault := y.fault }

def through (f : Progress → Nat → Except Fault Statement → Progress) (p : Progress)
    (ss : List (Except Fault Statement)) : Progress :=
  ss.zipIdx.foldl (fun p (s, i) => f p i s) p

/-- The columns of the first statement that has any. -/
def resultColumns (p : Progress) : List ResultColumn :=
  (p.columns.find? fun c => !c.isEmpty).getD []

def unread (p : Progress) : Unread :=
  p.rows.map (fun r => .ok (r.map Datum.toSql)) ++ (p.fault.map fun e => .error e.toStorage).toList

end Progress

/-- The number of statements that are kept prepared. -/
def preparedLimit : Nat := 100

/-- Puts the unread rows of the cursor that is being read aside. -/
def park (s : Store) : Store :=
  match s.stepping with
  | some c => { s with stepping := none, parked := c :: s.parked }
  | none => s

def start (s : Store) (sql : String) : Progress :=
  { engine := s.engine, columns := (s.prepared.lookup sql).getD [], lastId := s.engine.lastId }

def statements (sql : String) : List (Except Fault Statement) :=
  Statement.ofText (String.ofList (Text.trim sql.toList))

/-- Keeps what statements have left behind. -/
def keep (s : Store) (sql : String) (p : Progress) : Store :=
  { s with
    engine := p.engine
    crashed := p.crashed
    prepared := ((sql, p.columns) :: s.prepared.filter fun e => e.1 != sql).take preparedLimit }

/-- Works on a store that is open, after putting the rows of a cursor aside. -/
def working {α : Type} (f : Store → Reply Store α) (s : Store) : Reply Store α :=
  let s := s.park
  if !s.isOpen then (.error .closed, s)
  else if s.crashed then (.error Fault.crashed.toStorage, s)
  else f s

def values (ps : List Param) : List Datum := ps.map fun p => .ofSql p.value

def execute (sql : String) (ps : List Param) : Store → Reply Store ExecResult :=
  working fun s =>
    let ss := statements sql
    let p := (s.start sql).through (Progress.run (values ps)) ss
    let s := s.keep sql p
    match p.fault with
    | some e => (.error e.toStorage, s)
    | none =>
      if ss.isEmpty || p.crashed then (.ok ⟨0, some (.zero .i64)⟩, s)
      else (.ok ⟨p.changes, some p.lastId⟩, s)

/-- Prepares all statements of a text before it runs the first. -/
def rowsOf {α : Type} (sql : String) (ps : List Param)
    (f : List ResultColumn → Unread → Store → Reply Store α) : Store → Reply Store α :=
  working fun s =>
    let ss := statements sql
    let p := (s.start sql).through Progress.prepare ss
    match p.fault with
    | some e => (.error e.toStorage, s.keep sql p)
    | none =>
      let columns := p.resultColumns
      let p := p.through (Progress.run (values ps)) ss
      f columns p.unread (s.keep sql p)

def query (sql : String) (ps : List Param) : Store → Reply Store ResultSet :=
  rowsOf sql ps fun columns unread s =>
    match unread.mapM id with
    | .ok rows => (.ok ⟨columns, rows⟩, s)
    | .error e => (.error e, s)

def openCursor (sql : String) (ps : List Param) : Store → Reply Store Cursor :=
  rowsOf sql ps fun columns unread s =>
    let id := s.lastCursor + 1
    (.ok (.streaming id columns), { s with lastCursor := id, stepping := some (id, unread) })

def withoutParked (id : Nat) (s : Store) : Store :=
  { s with parked := s.parked.filter fun c => c.1 != id }

def nextRow (c : Cursor) (s : Store) : Reply Store (Option Row × Cursor) :=
  match s.parked.lookup c.id, s.stepping with
  | some (row :: rest), _ =>
    let others := s.withoutParked c.id
    (row.map (some ·, c), { others with parked := (c.id, rest) :: others.parked })
  | some [], _ => (.ok (none, c), s.withoutParked c.id)
  | none, some (id, unread) =>
    if id = c.id then
      match unread with
      | row :: rest => (row.map (some ·, c), { s with stepping := some (id, rest) })
      | [] => (.ok (none, c), { s with stepping := none })
    else (.ok (none, c), s)
  | none, none => (.ok (none, c), s)

def closeCursor (c : Cursor) (s : Store) : Cursor × Store :=
  let stepping := s.stepping.filter fun x => x.1 != c.id
  (c, { s.withoutParked c.id with stepping })

/-- What was not committed is lost. -/
def close (s : Store) : Reply Store Unit :=
  let closed := { s with
    engine := { s.engine with data := s.engine.committed, transaction := none }
    isOpen := false, stepping := none, parked := [] }
  (if s.isOpen && s.crashed then .error Fault.crashed.toStorage else .ok (), closed)

def driver : Driver Store where
  execute
  query
  scalar sql ps s :=
    let (r, s) := query sql ps s
    (r.map ResultSet.scalar, s)
  openCursor
  nextRow
  closeCursor
  isOpen := Store.isOpen
  close

/-- The state of the driver in a few words. -/
def describe (s : Store) : String :=
  let stepping := match s.stepping with
    | some (id, _) => "Some(" ++ Text.showInt id ++ ")"
    | none => "None"
  "SqliteDriver \x7b open: " ++ (if s.isOpen then "true" else "false") ++
    ", stepping: " ++ stepping ++ ", .. \x7d"

end Store

end RowLedger
