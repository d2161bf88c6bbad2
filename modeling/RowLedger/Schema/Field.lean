import RowLedger.Codec

/-! Declared fields: the name and kind of a column with its markers. -/

namespace RowLedger

/-- Membership in an index; an unnamed unique one is declared on the column itself. -/
structure IndexAttr where
  name : Option String := none
  order : Int := 0
  unique : Bool := false
  deriving DecidableEq

def IndexAttr.onColumn : IndexAttr := { unique := true }

/-- Is this declared on the column, so that it makes no index of its own? -/
def IndexAttr.isOnColumn (a : IndexAttr) : Bool := a.name.isNone && a.unique

structure Field where
  /-- The name of the column. -/
  name : String
  /-- The name of the field that backs it. -/
  property : String
  type : FieldType
  primaryKey : Bool := false
  autoIncrement : Bool := false
  ignored : Bool := false
  notNull : Bool := false
  indices : List IndexAttr := []
  maxLength : Option Nat := none
  collation : Option String := none
  deriving DecidableEq

/-- Underscores go and the letter after each is capital, if it is an ASCII letter. -/
def pascalFrom (capital : Bool) : List Char → List Char
  | [] => []
  | c :: cs =>
    if c = '_' then pascalFrom true cs
    else (if capital then c.toUpper else c) :: pascalFrom false cs

def pascalCase (s : String) : String := String.ofList (pascalFrom true s.toList)

end RowLedger
