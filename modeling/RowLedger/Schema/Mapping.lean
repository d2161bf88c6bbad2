import RowLedger.Schema.Record

/-!
Tables as fields map onto them: which columns there are, the key, and the column that identifies
a row in the ledger of changes.
-/

namespace RowLedger

/-- What a mapping infers beyond the declared markers. -/
structure Flags where
  /-- A column named `Id` is the primary key. -/
  implicitKey : Bool := false
  /-- Columns whose name ends in `Id` are indexed. -/
  implicitIndex : Bool := false
  /-- The primary key counts up. -/
  autoKey : Bool := false
  deriving DecidableEq

namespace Flags

def none : Flags := {}

def toNat (f : Flags) : Nat :=
  (if f.implicitKey then 1 else 0) + (if f.implicitIndex then 2 else 0) + if f.autoKey then 4 else 0

def ofNat (n : Nat) : Flags := ⟨n % 2 == 1, n / 2 % 2 == 1, n / 4 % 2 == 1⟩

end Flags

def syncName : String := "SyncGuid"

structure Column where
  name : String
  /-- The field's name; none if the column was added by the mapping. -/
  property : Option String
  kind : Kind
  nullable : Bool
  primaryKey : Bool
  autoIncrement : Bool
  /-- A GUID that an insert draws. -/
  autoGuid : Bool
  isSync : Bool
  indices : List IndexAttr
  maxLength : Option Nat
  collation : Option String
  /-- The position of the field. -/
  field : Option Nat
  deriving DecidableEq

namespace Column

def isUnique (c : Column) : Bool := c.indices.any IndexAttr.isOnColumn

def isAuto (c : Column) : Bool := c.autoIncrement || c.autoGuid

/-- Does the name end in `Id`, in any ASCII case? -/
def endsInId (name : String) : Bool :=
  match (Text.foldAscii name).reverse with
  | 'd' :: 'i' :: _ => true
  | _ => false

def ofField (f : Field) (position : Nat) (flags : Flags) : Column :=
  let primaryKey := f.primaryKey || (flags.implicitKey && Text.sameName f.name "Id")
  let auto := f.autoIncrement || (primaryKey && flags.autoKey)
  let isGuid := f.type.kind == .guid
  let implied := f.indices.isEmpty && !primaryKey && flags.implicitIndex && endsInId f.name
  { name := f.name
    property := some f.property
    kind := f.type.kind
    nullable := !(primaryKey || f.notNull)
    primaryKey
    autoIncrement := auto && !isGuid
    autoGuid := auto && isGuid
    isSync := false
    indices := if implied then [{}] else f.indices
    maxLength := f.maxLength
    collation := f.collation
    field := some position }

/-- The identifying column that a mapping adds when no field declares one. -/
def sync : Column :=
  { name := syncName
    property := none
    kind := .guid
    nullable := false
    primaryKey := false
    autoIncrement := false
    autoGuid := true
    isSync := true
    indices := [.onColumn]
    maxLength := none
    collation := none
    field := none }

/-- Makes a declared column the identifying one. -/
def markSync (c : Column) : Column :=
  { c with
    isSync := true
    autoGuid := true
    nullable := false
    indices := if c.isUnique then c.indices else c.indices ++ [.onColumn] }

end Column

structure Mapping where
  typeName : String
  table : String
  columns : List Column
  flags : Flags
  /-- The last primary key column. -/
  key : Option Nat
  /-- The first primary key column that counts up. -/
  autoKey : Option Nat
  /-- The identifying column. -/
  sync : Nat
  deriving DecidableEq

namespace Mapping

/-- Leaves out ignored fields, and those whose column is there already. -/
def columnsOf (flags : Flags) (fields : List Field) : List Column :=
  fields.zipIdx.foldl
    (fun cs (f, i) =>
      if f.ignored || cs.any (fun c => c.name == f.name) then cs
      else cs ++ [Column.ofField f i flags])
    []

/-- The columns with the identifying one marked or added, and its position. -/
def withSync (table : String) (cs : List Column) : Except Error (List Column × Nat) :=
  match cs.findIdx? fun c => Text.sameName c.name syncName with
  | none => .ok (cs ++ [Column.sync], cs.length)
  | some i =>
    match cs[i]? with
    | some c =>
      if c.kind = .guid then .ok (cs.modify i Column.markSync, i)
      else .error (.invalidSyncColumn table c.kind.name)
    | none => .ok (cs, i)

/-- The position of the last element that satisfies `p`. -/
def lastIdx? {α : Type} (p : α → Bool) (xs : List α) : Option Nat :=
  (xs.reverse.findIdx? p).map fun i => xs.length - 1 - i

def ofFields (typeName table : String) (fields : List Field) (flags : Flags) :
    Except Error Mapping := do
  let cs := columnsOf flags fields
  if cs.isEmpty then throw (.noColumns typeName)
  if (cs.filter Column.autoIncrement).length > 1 then throw (.multipleAutoIncrement table)
  let (columns, sync) ← withSync table cs
  return {
    typeName
    table
    columns
    flags
    key := lastIdx? Column.primaryKey columns
    autoKey := columns.findIdx? fun c => c.primaryKey && c.autoIncrement
    sync }

def ofRecord (t : RecordType) (flags : Flags) : Except Error Mapping :=
  ofFields t.name t.table t.fields flags

def column? (m : Mapping) (i : Nat) : Option Column := m.columns[i]?

def keyColumn? (m : Mapping) : Option Column := m.key.bind m.column?

def autoKeyColumn? (m : Mapping) : Option Column := m.autoKey.bind m.column?

def syncColumn (m : Mapping) : Column := (m.column? m.sync).getD Column.sync

/-- Names of columns are compared ignoring ASCII case. -/
def position? (m : Mapping) (name : String) : Option Nat :=
  m.columns.findIdx? fun c => Text.sameName c.name name

def find? (m : Mapping) (name : String) : Option Column := (m.position? name).bind m.column?

def ofProperty? (m : Mapping) (property : String) : Option Column :=
  m.columns.find? fun c => c.property == some property

/-- A field's name first, then a column's. -/
def resolve (m : Mapping) (name : String) : Except Error Column :=
  match (m.ofProperty? name).orElse fun _ => m.find? name with
  | some c => .ok c
  | none => .error (.unknownColumn m.table name)

def positionsWhere (m : Mapping) (p : Nat → Column → Bool) : List Nat :=
  (m.columns.zipIdx.filter fun (c, i) => p i c).map (·.2)

/-- Columns that count up are left to the database. -/
def insertColumns (m : Mapping) : List Nat := m.positionsWhere fun _ c => !c.autoIncrement

def replaceColumns (m : Mapping) : List Nat := m.positionsWhere fun _ _ => true

/-- All but the key and the identifying column. -/
def updateColumns (m : Mapping) : List Nat :=
  m.positionsWhere fun i _ => some i != m.key && i != m.sync

def columnsAt (m : Mapping) (positions : List Nat) : List Column := positions.filterMap m.column?

/-- The value that a record has in a column; null in an added one. -/
def get (m : Mapping) (e : Entity) (i : Nat) : Value :=
  match (m.column? i).bind Column.field with
  | some f => e.get f
  | none => .null

/-- Writes the field behind a column; an added column takes no value. -/
def set (m : Mapping) (e : Entity) (i : Nat) (v : Value) : Except Error Entity :=
  match (m.column? i).bind Column.field with
  | some f => e.set f v
  | none => .ok e

def hasField (m : Mapping) (i : Nat) : Bool := ((m.column? i).bind Column.field).isSome

def keyValue? (m : Mapping) (e : Entity) : Option Value := m.key.map (m.get e)

end Mapping

end RowLedger
