import RowLedger.Dialect

/-! Statements that insert, update and delete rows. -/

namespace RowLedger

/-- How an insert treats a row that has the key already. -/
inductive InsertMode
  | insert | replace | ignore
  deriving DecidableEq, Repr

namespace InsertMode

def verb : InsertMode → String
  | insert => "insert"
  | replace => "insert or replace"
  | ignore => "insert or ignore"

end InsertMode

namespace Dialect

def nameList (cs : List Column) : Sql := Sql.joined "," (cs.map fun c => [.name c.name])

def holeList (cs : List Column) : Sql := Sql.joined "," (cs.map fun c => [.hole c.name])

/-- Without columns the defaults are inserted. -/
def plainInsert (verb table : String) (cs : List Column) : Sql :=
  .word (verb ++ " into ") :: .name table ::
    if cs.isEmpty then [.word " default values"]
    else Sql.parenthesized (nameList cs) ++ .word " values " :: Sql.parenthesized (holeList cs)

/-- SQL Server replaces by deleting first and ignores by testing first. A key that counts up is
never there already, unless its value is given. -/
def serverInsert (m : Mapping) (cs : List Column) (mode : InsertMode) : Sql :=
  let insert := plainInsert "insert" m.table cs
  match m.keyColumn?, mode with
  | none, _ | some _, .insert => insert
  | some key, .ignore =>
    if key.autoIncrement then insert
    else
      [.word "if not exists (select * from ", .name m.table, .word " where ", .name key.name,
        .word " = ", .hole key.name, .word ") "] ++ insert
  | some key, .replace =>
    let delete : Sql :=
      [.word "delete from ", .name m.table, .word " where ", .name key.name, .word " = ",
        .hole key.name, .word "; "]
    if key.autoIncrement then
      delete ++ [.word "set identity_insert ", .name m.table, .word " on; "] ++ insert ++
        [.word "; set identity_insert ", .name m.table, .word " off"]
    else delete ++ insert

def insert (d : Dialect) (m : Mapping) (positions : List Nat) (mode : InsertMode) : Sql :=
  let cs := m.columnsAt positions
  match d with
  | sqlite => plainInsert mode.verb m.table cs
  | sqlServer => serverInsert m cs mode

/-! Transactions. -/

def begin : Sql := [.word "begin transaction"]

def commit : Dialect → Sql
  | sqlite => [.word "commit"]
  | sqlServer => [.word "commit transaction"]

def rollback : Dialect → Sql
  | sqlite => [.word "rollback"]
  | sqlServer => [.word "rollback transaction"]

/-- Opens a savepoint; in SQL Server the outermost one needs a transaction around it. -/
def savepoint (d : Dialect) (name : String) (depth : Nat) : Sql :=
  match d with
  | sqlite => [.word ("savepoint " ++ name)]
  | sqlServer =>
    [.word ((if depth = 0 then "begin transaction; " else "") ++ "save transaction " ++ name)]

/-- Closes a savepoint and leaves the given depth; SQL Server only ever closes the transaction. -/
def release? (d : Dialect) (name : String) (depth : Nat) : Option Sql :=
  match d with
  | sqlite => some [.word ("release " ++ name)]
  | sqlServer => if depth = 0 then some (commit sqlServer) else none

def rollbackTo (d : Dialect) (name : String) : Sql :=
  match d with
  | sqlite => [.word ("rollback to " ++ name)]
  | sqlServer => [.word ("rollback transaction " ++ name)]

end Dialect

end RowLedger
