import RowLedger.Schema.Index
import RowLedger.Sql.Piece

/-! The two dialects: how each names, marks and types things. -/

namespace RowLedger

inductive Dialect
  | sqlite | sqlServer
  deriving DecidableEq, Repr

namespace Dialect

def name : Dialect → String
  | sqlite => "sqlite"
  | sqlServer => "sqlserver"

/-- The mark of a parameter: nameless where binding goes by position. -/
def placeholder (d : Dialect) (name : String) : String :=
  match d with
  | sqlite => "?"
  | sqlServer => "@" ++ name

def quote (d : Dialect) (name : String) : String :=
  match d with
  | sqlite => Text.delimited '"' '"' name
  | sqlServer => Text.delimited '[' ']' name

def renderPiece (d : Dialect) : Piece → String
  | .word s => s
  | .name s => d.quote s
  | .hole s => d.placeholder s

/-- The text of a statement. -/
def render (d : Dialect) (s : Sql) : String := String.join (s.map d.renderPiece)

/-- May a comparison with null take a parameter? -/
def bindsNullComparisons : Dialect → Bool
  | sqlite => true
  | sqlServer => false

/-- Are parameters matched by position, so that one used twice is bound twice? -/
def bindsByPosition : Dialect → Bool
  | sqlite => true
  | sqlServer => false

/-- A text literal of SQL Server. -/
def nationalLiteral (s : String) : String := "N" ++ Text.delimited '\'' '\'' s

def defaultTextLength : Nat := 140

/-- A type name with a length. -/
def withLength (type : String) (c : Column) : String :=
  type ++ "(" ++ Text.showInt (c.maxLength.getD defaultTextLength) ++ ")"

def sqliteType (c : Column) : String :=
  match c.kind with
  | .bool | .int _ => "integer"
  | .single | .double | .decimal => "float"
  | .text => withLength "varchar" c
  | .timeSpan => "time"
  | .dateTime => "datetime"
  | .offsetDateTime => "bigint"
  | .bytes => "blob"
  | .guid => "varchar(36)"
  | .enum e => if e.asText then "varchar" else "integer"

def serverIntType : Width → String
  | .u8 => "tinyint"
  | .i8 | .i16 => "smallint"
  | .i32 | .u16 => "int"
  | .i64 | .u32 => "bigint"

def sqlServerType (c : Column) : String :=
  match c.kind with
  | .bool => "bit"
  | .int w => serverIntType w
  | .offsetDateTime => "bigint"
  | .single => "real"
  | .double | .decimal => "float"
  | .text => withLength "nvarchar" c
  | .timeSpan => "nvarchar(32)"
  | .dateTime => "datetime2"
  | .bytes => "varbinary(max)"
  | .guid => "uniqueidentifier"
  | .enum e => if e.asText then withLength "nvarchar" c else "int"

def sqlType : Dialect → Column → String
  | sqlite => sqliteType
  | sqlServer => sqlServerType

def autoIncrementKeyword : Dialect → String
  | sqlite => "autoincrement"
  | sqlServer => "IDENTITY(1,1)"

def autoGuidKeyword? : Dialect → Option String
  | sqlite => none
  | sqlServer => some "DEFAULT NEWID()"

/-- The clause that keeps a window of the rows, after any ordering. -/
def paging (d : Dialect) (limit offset : Option Nat) (ordered : Bool) : String :=
  let num (n : Nat) : String := Text.showInt n
  match d, limit, offset with
  | _, none, none => ""
  | sqlite, some l, some o => " limit " ++ num l ++ " offset " ++ num o
  | sqlite, some l, none => " limit " ++ num l
  | sqlite, none, some o => " limit -1 offset " ++ num o
  | sqlServer, limit, offset =>
    (if ordered then "" else " order by (select null)") ++
      " offset " ++ num (offset.getD 0) ++ " rows" ++
      match limit with
      | some l => " fetch next " ++ num l ++ " rows only"
      | none => ""

/-! Functions on text values. -/

def concat (d : Dialect) (a b : Sql) : Sql :=
  a ++ .word (match d with | sqlite => " || " | sqlServer => " + ") :: b

/-- A part of a text, from a position counted from one. -/
def substr (d : Dialect) (e start length : Sql) : Sql :=
  .word (match d with | sqlite => "substr(" | sqlServer => "substring(") ::
    e ++ .word ", " :: start ++ .word ", " :: length ++ [.word ")"]

def length (d : Dialect) (e : Sql) : Sql :=
  .word (match d with | sqlite => "length(" | sqlServer => "len(") :: e ++ [.word ")"]

/-- Where one text stands in another, counted from one; zero if nowhere. -/
def position (d : Dialect) (haystack needle : Sql) : Sql :=
  match d with
  | sqlite => .word "instr(" :: haystack ++ .word "," :: needle ++ [.word ")"]
  | sqlServer => .word "charindex(" :: needle ++ .word "," :: haystack ++ [.word ")"]

end Dialect

end RowLedger
