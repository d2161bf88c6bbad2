import RowLedger.Error

/-! What a database refuses to do, with the code and the wording of each. -/

namespace RowLedger

inductive Fault
  | near (token : String)
  | unrecognized (token : String)
  | incomplete
  | noTable (name : String)
  | noColumn (name : String)
  | noNamedColumn (table column : String)
  | noIndex (name : String)
  | noFunction (name : String)
  | argumentCount (function : String)
  | misusedAggregate (function : String)
  | noCollation (name : String)
  | tableExists (name : String)
  | indexExists (name : String)
  | isTable (name : String)
  | isIndex (name : String)
  | duplicateColumn (name : String)
  | manyKeys (table : String)
  | autoincrementElsewhere
  | cannotAdd (what : String)
  | valueCount (table : String) (columns values : Nat)
  | valueCountListed (values columns : Nat)
  | unevenRows
  | noTables
  | notUnique (columns : List String)
  | notUniqueIndex (name : String)
  | nullColumn (column : String)
  | mismatch
  | integerOverflow
  | full
  | transactionOpen
  | noTransaction (attempted : String)
  | noSavepoint (name : String)
  | cannotOpen
  | notDatabase
  | unknownParameter (key : String)
  | unknownValue (key value : String)
  | crashed
  deriving DecidableEq

namespace Fault

def code : Fault → ResultCode
  | notUnique _ | notUniqueIndex _ | nullColumn _ => .constraint
  | mismatch => .mismatch
  | full => .full
  | cannotOpen => .cannotOpen
  | _ => .error

def message : Fault → String
  | near t => "near \"" ++ t ++ "\": syntax error"
  | unrecognized t => "unrecognized token: \"" ++ t ++ "\""
  | incomplete => "incomplete input"
  | noTable t => "no such table: " ++ t
  | noColumn c => "no such column: " ++ c
  | noNamedColumn t c => "table " ++ t ++ " has no column named " ++ c
  | noIndex i => "no such index: " ++ i
  | noFunction f => "no such function: " ++ f
  | argumentCount f => "wrong number of arguments to function " ++ f ++ "()"
  | misusedAggregate f => "misuse of aggregate function " ++ f ++ "()"
  | noCollation c => "no such collation sequence: " ++ c
  | tableExists t => "table " ++ t ++ " already exists"
  | indexExists i => "index " ++ i ++ " already exists"
  | isTable t => "there is already a table named " ++ t
  | isIndex i => "there is already an index named " ++ i
  | duplicateColumn c => "duplicate column name: " ++ c
  | manyKeys t => "table \"" ++ t ++ "\" has more than one primary key"
  | autoincrementElsewhere => "AUTOINCREMENT is only allowed on an INTEGER PRIMARY KEY"
  | cannotAdd w => "Cannot add a " ++ w
  | valueCount t columns values =>
    "table " ++ t ++ " has " ++ Text.showInt columns ++ " columns but " ++ Text.showInt values ++
      " values were supplied"
  | valueCountListed values columns =>
    Text.showInt values ++ " values for " ++ Text.showInt columns ++ " columns"
  | unevenRows => "all VALUES must have the same number of terms"
  | noTables => "no tables specified"
  | notUnique cs => "UNIQUE constraint failed: " ++ String.intercalate ", " cs
  | notUniqueIndex i => "UNIQUE constraint failed: index '" ++ i ++ "'"
  | nullColumn c => "NOT NULL constraint failed: " ++ c
  | mismatch => "datatype mismatch"
  | integerOverflow => "integer overflow"
  | full => "database or disk is full"
  | transactionOpen => "cannot start a transaction within a transaction"
  | noTransaction w => "cannot " ++ w ++ " - no transaction is active"
  | noSavepoint s => "no such savepoint: " ++ s
  | cannotOpen => "unable to open database file"
  | notDatabase => "file is not a database"
  | unknownParameter k =>
    "error with configuration: unknown query parameter `" ++ k ++
      "` while parsing connection URL"
  | unknownValue k v =>
    "error with configuration: unknown value " ++ Text.quoted v ++ " for `" ++ k ++ "`"
  | crashed => "attempted to communicate with a crashed background worker"

def toStorage (f : Fault) : StorageError := ⟨f.code, f.message⟩

end Fault

end RowLedger
