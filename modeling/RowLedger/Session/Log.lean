import RowLedger.Driver
import RowLedger.Ledger.Entry

/-!
A session: the state of a driver together with a log of what reached it and of what subscribers
heard, and with the names that its user has given.
-/

namespace RowLedger

inductive StatementKind
  | execute | query | openCursor
  deriving DecidableEq, Repr

inductive LogEntry
  | statement (kind : StatementKind) (sql : String) (params : List Param)
  | nextRow (cursor : Nat)
  | closeCursor (cursor : Nat)
  | close
  /-- A subscriber, by its label, heard of a change. -/
  | event (label table : String) (action : Action)
  deriving DecidableEq

structure Session (σ : Type) where
  inner : σ
  /-- Oldest first. -/
  log : List LogEntry := []
  records : List (String × Entity) := []
  savepoints : List (String × String) := []
  subscriptions : List (String × Nat) := []

/-- What a session logs of its driver. -/
inductive Logging
  /-- Nothing but the events. -/
  | silent
  /-- Statements; every result is loaded at once. -/
  | buffered
  /-- Statements, and each row that is read through a cursor. -/
  | streaming
  deriving DecidableEq, Repr

namespace Session

variable {σ α : Type}

def add (e : LogEntry) (s : Session σ) : Session σ := { s with log := s.log ++ [e] }

/-- Calls the driver behind the session. -/
def onInner (f : σ → Reply σ α) (s : Session σ) : Reply (Session σ) α :=
  let (r, inner) := f s.inner
  (r, { s with inner })

def logged (kind : StatementKind) (f : String → List Param → σ → Reply σ α) (sql : String)
    (params : List Param) (s : Session σ) : Reply (Session σ) α :=
  onInner (f sql params) (s.add (.statement kind sql params))

def loggedQuery (d : Driver σ) := logged .query d.query

def loggedClose (d : Driver σ) (s : Session σ) : Reply (Session σ) Unit :=
  onInner d.close (s.add .close)

/-- The driver as the session shows it to a connection. -/
def driver (d : Driver σ) : Logging → Driver (Session σ)
  | .silent =>
    { execute := fun sql ps => onInner (d.execute sql ps)
      query := fun sql ps => onInner (d.query sql ps)
      scalar := fun sql ps => onInner (d.scalar sql ps)
      openCursor := fun sql ps => onInner (d.openCursor sql ps)
      nextRow := fun c => onInner (d.nextRow c)
      closeCursor := fun c s =>
        let (c, inner) := d.closeCursor c s.inner
        (c, { s with inner })
      isOpen := fun s => d.isOpen s.inner
      close := onInner d.close }
  | .buffered =>
    .buffered (logged .execute d.execute) (loggedQuery d) (fun s => d.isOpen s.inner)
      (loggedClose d)
  | .streaming =>
    { execute := logged .execute d.execute
      query := loggedQuery d
      scalar := fun sql ps s =>
        let (r, s) := loggedQuery d sql ps s
        (r.map ResultSet.scalar, s)
      openCursor := logged .openCursor d.openCursor
      nextRow := fun c s => onInner (d.nextRow c) (s.add (.nextRow c.id))
      closeCursor := fun c s =>
        let (c', inner) := d.closeCursor c s.inner
        (c', { s with inner }.add (.closeCursor c.id))
      isOpen := fun s => d.isOpen s.inner
      close := loggedClose d }

end Session

end RowLedger
