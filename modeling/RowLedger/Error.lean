import RowLedger.Stored

/-! Everything that can go wrong, as causes, with the code and the wording of each. -/

namespace RowLedger

/-- The primary result codes of storage engines, shared by all errors. -/
inductive ResultCode
  | error | busy | locked | noMem | interrupt | ioError | notFound | full | cannotOpen
  | constraint | mismatch | misuse
  deriving DecidableEq, Repr

namespace ResultCode

def all : List ResultCode :=
  [error, busy, locked, noMem, interrupt, ioError, notFound, full, cannotOpen, constraint,
    mismatch, misuse]

def name : ResultCode → String
  | error => "Error"
  | busy => "Busy"
  | locked => "Locked"
  | noMem => "NoMem"
  | interrupt => "Interrupt"
  | ioError => "IOError"
  | notFound => "NotFound"
  | full => "Full"
  | cannotOpen => "CannotOpen"
  | constraint => "Constraint"
  | mismatch => "Mismatch"
  | misuse => "Misuse"

/-- After these the open transaction has to be rolled back. -/
def forcesRollback : ResultCode → Bool
  | ioError | full | busy | locked | noMem | interrupt => true
  | _ => false

end ResultCode

/-- Why a database value cannot be read as a kind. -/
inductive ReadFault
  | native (t : NativeType)
  | typed (typeName : String)
  | notInteger (s : String)
  | outOfRange (n : Int)
  | notNumber (s : String)
  | unknownLabel (s : String)
  | unknownOrdinal (n : Int)
  | notTimeSpan (s : String)
  | notDate (s : String)
  | ticksOutOfRange (n : Int)
  | malformed
  deriving DecidableEq

def ReadFault.message : ReadFault → String
  | native t => "got a " ++ t.name ++ " value"
  | typed name => "got a " ++ name ++ " value"
  | notInteger s => Text.quoted s ++ " is not an integer"
  | outOfRange n => Text.showInt n ++ " is out of range"
  | notNumber s => Text.quoted s ++ " is not a number"
  | unknownLabel s => "unknown label " ++ Text.quoted s
  | unknownOrdinal n => Text.showInt n ++ " is not a valid ordinal"
  | notTimeSpan s => Text.quoted s ++ " is not a time span"
  | notDate s => Text.quoted s ++ " is not a date"
  | ticksOutOfRange n => Text.showInt n ++ " ticks is out of range"
  | malformed => "malformed"

/-- Why a method call has no form in SQL. -/
inductive CallFault
  | noReceiver | badMode | modeNotConstant | lengthUnknown
  deriving DecidableEq, Repr

def CallFault.message : CallFault → String
  | noReceiver => "a receiver is required"
  | badMode => "invalid comparison mode"
  | modeNotConstant => "the comparison mode must be a constant"
  | lengthUnknown => "exact comparison needs a constant string argument"

/-- What a value without a stored form was. -/
inductive Unstorable
  | ordinal (typeName : String) (n : Int)
  | instant (shown : String)
  deriving DecidableEq

def Unstorable.message : Unstorable → String
  | ordinal name n => name ++ " (ordinal " ++ Text.showInt n ++ ")"
  | instant s => "DateTime<FixedOffset> outside the tick range (" ++ s ++ ")"

/-- A failure that a database reports. -/
structure StorageError where
  code : ResultCode
  message : String
  deriving DecidableEq

def StorageError.closed : StorageError := ⟨.misuse, "the connection is closed"⟩

/-- What cannot be done to a table without a primary key. -/
inductive KeyedOperation
  | update | delete | read
  deriving DecidableEq, Repr

def KeyedOperation.name : KeyedOperation → String
  | update => "update"
  | delete => "delete"
  | read => "read"

/-- What the state of a connection or a query does not allow. -/
inductive InvalidOperation
  | alreadyInTransaction
  | deleteWithPaging
  | deleteWithoutCondition
  | other (message : String)
  deriving DecidableEq

def InvalidOperation.message : InvalidOperation → String
  | alreadyInTransaction => "Cannot begin a transaction while already in a transaction."
  | deleteWithPaging => "Cannot delete with limits or offsets"
  | deleteWithoutCondition => "No condition specified"
  | other m => m

inductive Error
  | noColumns (typeName : String)
  | multipleAutoIncrement (table : String)
  | invalidSyncColumn (table found : String)
  | inconsistentIndex (index : String)
  | noPrimaryKey (table : String) (operation : KeyedOperation)
  | unknownColumn (table column : String)
  | unsupportedExpression (node : String)
  | unsupportedOperator (operator : String)
  | unsupportedNullComparison (operator : String)
  | unsupportedCall (method : String) (fault : CallFault)
  | unsupportedType (what : Unstorable)
  | unreadable (typeName : String) (fault : ReadFault)
  | storage (e : StorageError)
  | notFound (table : String)
  | invalidOperation (what : InvalidOperation)
  | invalidSavepoint (name : String)
  | config (message : String)
  | json
  deriving DecidableEq

namespace Error

/-- The name of the cause. -/
def cause : Error → String
  | noColumns _ => "NoColumns"
  | multipleAutoIncrement _ => "MultipleAutoIncrement"
  | invalidSyncColumn _ _ => "InvalidSyncColumn"
  | inconsistentIndex _ => "InconsistentIndex"
  | noPrimaryKey _ _ => "NoPrimaryKey"
  | unknownColumn _ _ => "UnknownColumn"
  | unsupportedExpression _ => "UnsupportedExpression"
  | unsupportedOperator _ => "UnsupportedOperator"
  | unsupportedNullComparison _ => "UnsupportedNullComparison"
  | unsupportedCall _ _ => "UnsupportedCall"
  | unsupportedType _ => "UnsupportedType"
  | unreadable _ _ => "Unreadable"
  | storage _ => "Storage"
  | notFound _ => "NotFound"
  | invalidOperation _ => "InvalidOperation"
  | invalidSavepoint _ => "InvalidSavepoint"
  | config _ => "Config"
  | json => "Json"

def code : Error → ResultCode
  | noColumns _ | multipleAutoIncrement _ | invalidSyncColumn _ _ | inconsistentIndex _
  | noPrimaryKey _ _ | json => .error
  | unknownColumn _ _ | unsupportedExpression _ | unsupportedOperator _
  | unsupportedNullComparison _ | unsupportedCall _ _
  | invalidOperation _ | invalidSavepoint _ | config _ => .misuse
  | unsupportedType _ | unreadable _ _ => .mismatch
  | storage e => e.code
  | notFound _ => .notFound

def message : Error → String
  | noColumns t => "Cannot create a table without columns (does '" ++ t ++ "' have public fields?)"
  | multipleAutoIncrement t => t ++ " declares more than one auto-increment column"
  | invalidSyncColumn t k => "SyncGuid column of " ++ t ++ " must be a GUID, found " ++ k
  | inconsistentIndex i =>
    "All the columns in index " ++ i ++ " must have the same value for their unique property"
  | noPrimaryKey t op => "Cannot " ++ op.name ++ " " ++ t ++ ": it has no PK"
  | unknownColumn t c => t ++ " has no column named " ++ c
  | unsupportedExpression n => "Cannot compile: " ++ n
  | unsupportedOperator o => "Cannot get SQL for: " ++ o
  | unsupportedNullComparison o => "Cannot compile Null-BinaryExpression with type " ++ o
  | unsupportedCall m f => "Cannot compile call to " ++ m ++ ": " ++ f.message
  | unsupportedType w => "Cannot store type: " ++ w.message
  | unreadable t f => "Don't know how to read " ++ t ++ ": " ++ f.message
  | storage e => e.code.name ++ ": " ++ e.message
  | notFound t => "no row of " ++ t ++ " matches the query"
  | invalidOperation w => w.message
  | invalidSavepoint s =>
    "Savepoint " ++ s ++
      " is not valid, and should be the result of a call to save_transaction_point"
  | config m => "configuration error: " ++ m
  | json => "JSON error"

end Error

end RowLedger
