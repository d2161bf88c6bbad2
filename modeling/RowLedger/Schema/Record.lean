import RowLedger.Schema.Field

/-! Record types: a name, a table and a list of fields, and records of such a type. -/

namespace RowLedger

/-- A field with the value that a fresh record has in it. -/
structure Slot where
  field : Field
  initial : Value
  deriving DecidableEq

structure RecordType where
  name : String
  table : String
  slots : List Slot
  deriving DecidableEq

namespace Kind

/-- Zero, the empty text, the epoch: what a mandatory field starts with. -/
def zero : Kind → Value
  | bool => .bool false
  | int w => .int (Sized.zero w)
  | single => .single (Binary.zero _)
  | double => .double (Binary.zero _)
  | decimal => .decimal .zero
  | text => .text ""
  | timeSpan => .timeSpan .zero
  | dateTime => .dateTime .epoch
  | offsetDateTime => .offsetDateTime .epoch
  | bytes => .bytes []
  | guid => .guid .nil
  | enum e => .enum e ((e.variants.head?.map (·.2)).getD (Sized.zero _))

end Kind

namespace FieldType

def initial (t : FieldType) : Value := if t.optional then .null else t.kind.zero

end FieldType

namespace Slot

/-- A plain field; the column is named after it. -/
def plain (property : String) (type : FieldType) : Slot :=
  ⟨{ name := pascalCase property, property, type }, type.initial⟩

def startingAt (s : Slot) (v : Value) : Slot := { s with initial := v }

def named (s : Slot) (name : String) : Slot := { s with field := { s.field with name } }

def key (s : Slot) : Slot := { s with field := { s.field with primaryKey := true } }

def auto (s : Slot) : Slot := { s with field := { s.field with autoIncrement := true } }

def ignored (s : Slot) : Slot := { s with field := { s.field with ignored := true } }

def mandatory (s : Slot) : Slot := { s with field := { s.field with notNull := true } }

def indexed (s : Slot) (name : Option String) (order : Int) (unique : Bool) : Slot :=
  { s with field := { s.field with indices := s.field.indices ++ [⟨name, order, unique⟩] } }

def unique (s : Slot) : Slot := s.indexed none 0 true

def atMost (s : Slot) (length : Nat) : Slot :=
  { s with field := { s.field with maxLength := some length } }

def collated (s : Slot) (name : String) : Slot :=
  { s with field := { s.field with collation := some name } }

end Slot

namespace RecordType

/-- Own fields come first; those of embedded records follow in order. -/
def make (name table : String) (own : List Slot) (embedded : List RecordType) : RecordType :=
  ⟨name, table, own ++ embedded.flatMap slots⟩

def fields (t : RecordType) : List Field := t.slots.map Slot.field

def initial (t : RecordType) : List Value := t.slots.map Slot.initial

end RecordType

/-- A record: one value for each field of its type. -/
structure Entity where
  type : RecordType
  values : List Value
  deriving DecidableEq

namespace Entity

def fresh (t : RecordType) : Entity := ⟨t, t.initial⟩

/-- The value of a field; null past the last one. -/
def get (e : Entity) (i : Nat) : Value := (e.values[i]?).getD .null

/-- Writes a field, if the value has its type. -/
def set (e : Entity) (i : Nat) (v : Value) : Except Error Entity :=
  match e.type.fields[i]? with
  | none => .ok e
  | some f => do
    let v ← f.type.read v
    return { e with values := e.values.set i v }

/-- The first field with a property name. -/
def position? (t : RecordType) (property : String) : Option Nat :=
  t.fields.findIdx? fun f => f.property == property

end Entity

end RowLedger
