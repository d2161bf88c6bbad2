import RowLedger.Driver
import RowLedger.Text.Blank

/-! A driver that answers from a script of replies, each used once. -/

namespace RowLedger

structure ScriptedReply where
  /-- Only statements that contain this text get the reply. -/
  pattern : Option String := none
  rowsAffected : Nat := 1
  lastId : Option (Sized .i64) := none
  columns : List String := []
  rows : List Row := []
  failure : Option StorageError := none
  /-- The number of rows after which a cursor fails, and the failure. -/
  rowFailure : Option (Nat × StorageError) := none
  deriving DecidableEq

/-- The rows that a cursor has not read yet. -/
structure PendingRows where
  rows : List Row
  failure : Option (Nat × StorageError)
  deriving DecidableEq

structure Script where
  replies : List ScriptedReply := []
  isOpen : Bool := true
  lastCursor : Nat := 0
  pending : List (Nat × PendingRows) := []
  deriving DecidableEq

namespace ScriptedReply

def fits (r : ScriptedReply) (sql : String) : Bool :=
  match r.pattern with
  | some p => Text.occursIn p.toList sql.toList
  | none => true

def resultColumns (r : ScriptedReply) : List ResultColumn :=
  r.columns.map fun name => ⟨name, .null⟩

end ScriptedReply

namespace Script

/-- The first reply that fits, which is used up; otherwise the default. -/
def take (sql : String) (s : Script) : ScriptedReply × Script :=
  match s.replies.find? (·.fits sql) with
  | some r => (r, { s with replies := s.replies.eraseP (·.fits sql) })
  | none => ({}, s)

/-- Answers a statement by a reply that does not fail. -/
def answer {α : Type} (f : ScriptedReply → Script → α × Script) (sql : String)
    (_ : List Param) (s : Script) : Reply Script α :=
  if s.isOpen then
    let (r, s) := s.take sql
    match r.failure with
    | some e => (.error e, s)
    | none =>
      let (a, s) := f r s
      (.ok a, s)
  else (.error .closed, s)

def execute : String → List Param → Script → Reply Script ExecResult :=
  answer fun r s => (⟨r.rowsAffected, r.lastId⟩, s)

def query : String → List Param → Script → Reply Script ResultSet :=
  answer fun r s => (⟨r.resultColumns, r.rows⟩, s)

def openCursor : String → List Param → Script → Reply Script Cursor :=
  answer fun r s =>
    let id := s.lastCursor + 1
    let pending := (id, ⟨r.rows, r.rowFailure⟩) :: s.pending
    (.streaming id r.resultColumns, { s with lastCursor := id, pending })

def forget (id : Nat) (s : Script) : Script :=
  { s with pending := s.pending.filter fun p => p.1 != id }

/-- A forgotten cursor has no rows. -/
def nextRow (c : Cursor) (s : Script) : Reply Script (Option Row × Cursor) :=
  match s.pending.lookup c.id with
  | none => (.ok (none, c), s)
  | some p =>
    match p.failure, p.rows with
    | some (0, e), _ => (.error e, s)
    | _, [] => (.ok (none, c), s)
    | failure, row :: rows =>
      let p := ⟨rows, failure.map fun f => (f.1 - 1, f.2)⟩
      let s := s.forget c.id
      (.ok (some row, c), { s with pending := (c.id, p) :: s.pending })

def driver : Driver Script where
  execute
  query
  scalar sql params s :=
    let (r, s) := query sql params s
    (r.map ResultSet.scalar, s)
  openCursor
  nextRow
  closeCursor c s := (c, s.forget c.id)
  isOpen := Script.isOpen
  close s := (.ok (), { s with isOpen := false })

/-- A step brings its own replies, and those of the step around it come back after it. -/
def enter (replies : List ScriptedReply) (s : Script) : Script := { s with replies }

def leave (outer inner : Script) : Script := { inner with replies := outer.replies }

end Script

end RowLedger
