import RowLedger.Dialect

/-! Statements that define tables and indexes. -/

namespace RowLedger.Dialect

/-- A column of a new table, with all its constraints. -/
def columnDecl (d : Dialect) (c : Column) : Sql :=
  let markers : List String :=
    (if c.primaryKey then ["primary key"] else []) ++
    (if c.autoIncrement then [d.autoIncrementKeyword] else []) ++
    (if c.nullable then [] else ["not null"]) ++
    (if c.autoGuid then d.autoGuidKeyword?.toList else []) ++
    (if c.isUnique && !c.primaryKey then ["UNIQUE"] else []) ++
    (c.collation.map ("collate " ++ ·)).toList
  .name c.name :: .word (" " ++ d.sqlType c) :: markers.map fun m => .word (" " ++ m)

/-- A column added to a table that may hold rows: it can be neither mandatory nor unique. -/
def addColumnDecl (d : Dialect) (c : Column) : Sql :=
  .name c.name :: .word (" " ++ d.sqlType c) ::
    (c.collation.map fun n => Piece.word (" collate " ++ n)).toList

def createTable (d : Dialect) (m : Mapping) : Sql :=
  let head := match d with
    | sqlite => "create table if not exists "
    | sqlServer => "if object_id(" ++ nationalLiteral m.table ++ ", N'U') is null create table "
  .word head :: .name m.table :: .word "(\n" ::
    Sql.joined ",\n" (m.columns.map d.columnDecl) ++ [.word ")"]

def addColumn (d : Dialect) (table : String) (c : Column) : Sql :=
  let verb := match d with
    | sqlite => " add column "
    | sqlServer => " add "
  .word "alter table " :: .name table :: .word verb :: d.addColumnDecl c

def dropTable (table : String) : Sql := [.word "drop table if exists ", .name table]

def createIndex (d : Dialect) (i : Index) : Sql :=
  let kind := if i.unique then "unique " else ""
  let head := match d with
    | sqlite => "create " ++ kind ++ "index if not exists "
    | sqlServer =>
      "if not exists (select * from sys.indexes where name = " ++ nationalLiteral i.name ++
        ") create " ++ kind ++ "index "
  .word head :: .name i.name :: .word " on " :: .name i.table ::
    Sql.parenthesized (Sql.joined ", " (i.columns.map fun c => [.name c]))

/-- Lists the columns of a table, a row for each. -/
def tableInfo (d : Dialect) (table : String) : Sql :=
  match d with
  | sqlite => [.word "pragma table_info(", .name table, .word ")"]
  | sqlServer =>
    [.word ("select COLUMN_NAME as name, DATA_TYPE as type, " ++
      "case IS_NULLABLE when 'NO' then 1 else 0 end as notnull " ++
      "from INFORMATION_SCHEMA.COLUMNS where TABLE_NAME = " ++ nationalLiteral table ++
      " order by ORDINAL_POSITION")]

/-- Only SQL Server has databases as objects. -/
def createDatabase? (d : Dialect) (name : String) : Option Sql :=
  match d with
  | sqlite => none
  | sqlServer =>
    some [.word ("if db_id(" ++ nationalLiteral name ++ ") is null create database "), .name name]

def changeCatalog? (d : Dialect) (name : String) : Option Sql :=
  match d with
  | sqlite => none
  | sqlServer => some [.word "use ", .name name]

end RowLedger.Dialect
