import RowLedger.Number.Shortest
import RowLedger.Number.Sized
import RowLedger.Text.Delimited
import RowLedger.Text.Hexadecimal
import RowLedger.Text.Quoted

/-! The values that a database exchanges: what is bound to a statement and read from a row. -/

namespace RowLedger

inductive SqlValue
  | null
  | int (n : Sized .i32)
  | bigInt (n : Sized .i64)
  | real (x : Double)
  | text (s : String)
  | blob (b : List UInt8)
  deriving DecidableEq, Inhabited

inductive NativeType
  | null | integer | real | text | blob
  deriving DecidableEq, Repr

def NativeType.name : NativeType → String
  | null => "Null"
  | integer => "Integer"
  | real => "Real"
  | text => "Text"
  | blob => "Blob"

def NativeType.all : List NativeType := [.null, .integer, .real, .text, .blob]

namespace SqlValue

def isNull : SqlValue → Bool
  | null => true
  | _ => false

def native : SqlValue → NativeType
  | null => .null
  | int _ | bigInt _ => .integer
  | real _ => .real
  | text _ => .text
  | blob _ => .blob

/-- Quotes inside a text are written twice. -/
def literal (s : String) : String := Text.delimited '\'' '\'' s

/-- The value as it would stand in the text of a statement. -/
def inline : SqlValue → String
  | null => "NULL"
  | int n => Text.showInt n.val
  | bigInt n => Text.showInt n.val
  | real x => Shortest.showDouble x
  | text s => literal s
  | blob b => "X" ++ literal (String.ofList ((Text.byteDigits b).map Char.toUpper))

end SqlValue

/-- A bound parameter; where binding goes by position the name only documents. -/
structure Param where
  name : String
  value : SqlValue
  deriving DecidableEq

end RowLedger
