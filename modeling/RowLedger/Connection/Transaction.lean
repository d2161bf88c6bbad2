import RowLedger.Connection.Basic

/-!
Nested transactions. The connection counts levels: the outermost one begins and commits, inner ones
are savepoints, and the name of a savepoint tells the level that it was opened at.
-/

namespace RowLedger

namespace Savepoint

/-- The name of a savepoint opened at a depth. -/
def name (number depth : Nat) : String := "S" ++ Text.showInt number ++ "D" ++ Text.showInt depth

/-- The depth after the first `D`, which stands behind at least two characters. -/
def depth? (name : String) : Option Nat :=
  match Text.splitFirst? (· == 'D') name.toList with
  | some (before, after) =>
    if 2 ≤ String.utf8ByteSize (String.ofList before) then
      (Text.readUnsigned? after).filter (· < UInt64.size)
    else none
  | none => none

end Savepoint

namespace Act

variable {σ α β : Type}

def isInTransaction : Act σ Bool := do return 0 < (← state).depth

def setDepth (n : Nat) : Act σ Unit := update fun c => { c with depth := n }

/-- A rollback may undo the creation of the table of changes. -/
def forgetLedger : Act σ Unit := update fun c => { c with ledgerReady := false }

/-- Rolls back everything, whether or not the statement succeeds. -/
def quietRollback : Act σ Unit := do
  setDepth 0
  forgetLedger
  quietly (exec (← dialect).rollback [])

/-- Corrects the count after a level could not be opened. -/
def recover (e : Error) : Act σ Unit := do
  match e with
  | .storage s =>
    if s.code.forcesRollback then quietRollback
    else update fun c => { c with depth := c.depth - 1 }
  | _ => update fun c => { c with depth := c.depth - 1 }

/-- Opens a level by a statement. -/
def openLevel (sql : Sql) : Act σ Unit := do
  match ← attempt (exec sql []) with
  | .ok _ => return
  | .error e =>
    recover e
    fail e

/-- Begins the outermost transaction. -/
def begin : Act σ Unit := do
  if (← state).depth = 0 then
    setDepth 1
    openLevel Dialect.begin
  else fail (.invalidOperation .alreadyInTransaction)

/-- Opens a savepoint, and a transaction if there is none. -/
def save : Act σ String := do
  let depth := (← state).depth
  setDepth (depth + 1)
  let name := Savepoint.name (← drawSavepointNumber) depth
  openLevel ((← dialect).savepoint name depth)
  return name

/-- The level of a savepoint that is still open. -/
def openDepth (name : String) : Act σ Nat := do
  match (Savepoint.depth? name).filter (· < (← state).depth) with
  | some depth => return depth
  | none => fail (.invalidSavepoint name)

/-- A busy database loses the whole transaction. -/
def execAtSavepoint (sql : Sql) : Act σ Unit := do
  match ← attempt (exec sql []) with
  | .ok _ => return
  | .error e =>
    if e.code = .busy then quietRollback
    fail e

/-- Closes a savepoint and keeps its work. -/
def release (name : String) : Act σ Unit := do
  let depth ← openDepth name
  setDepth depth
  match (← dialect).release? name depth with
  | some sql => execAtSavepoint sql
  | none => return

def rollback : Act σ Unit := do
  let depth := (← state).depth
  setDepth 0
  if 0 < depth then
    forgetLedger
    let _ ← exec (← dialect).rollback []

/-- Undoes the work after a savepoint, or everything if the name is empty. -/
def rollbackTo (name : String) : Act σ Unit := do
  if name = "" then rollback
  else
    let depth ← openDepth name
    setDepth depth
    forgetLedger
    execAtSavepoint ((← dialect).rollbackTo name)

/-- Commits, and rolls back if that fails. -/
def commit : Act σ Unit := do
  let depth := (← state).depth
  setDepth 0
  if 0 < depth then
    match ← attempt (exec (← dialect).commit []) with
    | .ok _ => return
    | .error e =>
      quietRollback
      fail e

/-- Runs an action in a savepoint and rolls everything back if it or the release fails. The action
also returns what it keeps in either case. -/
def keepingInTransaction (kept : β) (body : Act σ (β × Except Error α)) :
    Act σ (β × Except Error α) := do
  match ← attempt save with
  | .error e => return (kept, .error e)
  | .ok name =>
    let (kept, r) ← body
    match r with
    | .error e =>
      quietRollback
      return (kept, .error e)
    | .ok a =>
      match ← attempt (release name) with
      | .ok () => return (kept, .ok a)
      | .error e =>
        quietRollback
        return (kept, .error e)

/-- Runs an action in a savepoint; a failure rolls everything back. -/
def runInTransaction (body : Act σ α) : Act σ α := do
  let (_, r) ← keepingInTransaction () (do return ((), ← attempt body))
  ofExcept r

end Act

end RowLedger
