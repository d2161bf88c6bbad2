import RowLedger.Database.Affinity

/-! The statements of a database and the terms in them, as trees. -/

namespace RowLedger

inductive Operator
  | or | and | is | isNot | eq | ne | lt | le | gt | ge
  | bitAnd | bitOr | shiftLeft | shiftRight
  | add | subtract | multiply | divide | remainder | concat
  deriving DecidableEq, Repr

/-- A term over columns of some kind: their names at first, then their places. -/
inductive Term (ν : Type)
  | literal (d : Datum)
  | column (c : ν)
  /-- The parameter at a position counted from one. -/
  | parameter (position : Nat)
  | negate (t : Term ν)
  | complement (t : Term ν)
  | not (t : Term ν)
  | binary (op : Operator) (left right : Term ν)
  | among (t : Term ν) (list : List (Term ν))
  | like (t pattern : Term ν)
  | call (function : String) (args : List (Term ν))
  | countRows
  | collate (t : Term ν) (collation : String)

/-- A column as a statement names it. -/
structure ColumnName where
  table : Option String := none
  name : String
  /-- Was it in double quotes, so that it is a text if there is no such column? -/
  maybeText : Bool := false
  deriving DecidableEq

abbrev NamedTerm := Term ColumnName

structure KeyMark where
  descending : Bool
  autoincrement : Bool
  deriving DecidableEq

structure ColumnDefinition where
  name : String
  type : String
  key : Option KeyMark := none
  notNull : Bool := false
  isUnique : Bool := false
  collation : Option String := none
  /-- What the column holds where nothing else is said, and how that was written. -/
  fallback : Option (NamedTerm × String) := none

inductive TableRule
  | primaryKey (columns : List String) (autoincrement : Bool)
  | unique (columns : List String)

inductive Conflict
  | abort | ignore | replace
  deriving DecidableEq, Repr

inductive ResultTerm
  | all
  /-- A term, the name given to it, and how it was written. -/
  | one (t : NamedTerm) (heading : Option String) (written : String)

structure OrderTerm where
  term : NamedTerm
  descending : Bool

structure Selection where
  results : List ResultTerm
  source : Option String := none
  condition : Option NamedTerm := none
  order : List OrderTerm := []
  limit : Option NamedTerm := none
  offset : Option NamedTerm := none

/-- The rows of an insertion: lists of terms, or one row of what columns hold by themselves. -/
inductive InsertedRows
  | values (rows : List (List NamedTerm))
  | defaults

inductive Statement
  | createTable (ifAbsent : Bool) (name : String) (columns : List ColumnDefinition)
      (rules : List TableRule)
  | createIndex (isUnique ifAbsent : Bool) (name table : String) (columns : List ColumnName)
  | addColumn (table : String) (column : ColumnDefinition)
  | dropTable (ifPresent : Bool) (name : String)
  | dropIndex (ifPresent : Bool) (name : String)
  | insert (onConflict : Conflict) (table : String) (columns : Option (List String))
      (rows : InsertedRows)
  | update (table : String) (changes : List (String × NamedTerm)) (condition : Option NamedTerm)
  | delete (table : String) (condition : Option NamedTerm)
  | select (s : Selection)
  | tableInfo (table : String)
  | begin
  | commit
  | rollback
  | savepoint (name : String)
  | release (name : String)
  | rollbackTo (name : String)
  /-- A setting that changes nothing that can be seen. -/
  | setting

end RowLedger
