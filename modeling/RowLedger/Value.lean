import RowLedger.Calendar.Instant
import RowLedger.Calendar.TimeSpan
import RowLedger.Guid
import RowLedger.Number.Decimal
import RowLedger.Number.Shortest

/-! Field values and the kinds that columns are declared with. -/

namespace RowLedger

/-- The labels of an enumeration in declaration order, and how its values are stored. -/
structure EnumType where
  name : String
  asText : Bool
  variants : List (String × Sized .i64)
  deriving DecidableEq

namespace EnumType

def label? (e : EnumType) (ordinal : Sized .i64) : Option String :=
  (e.variants.find? fun v => v.2 = ordinal).map (·.1)

/-- The first label that is the same up to ASCII case. -/
def ordinal? (e : EnumType) (label : String) : Option (Sized .i64) :=
  (e.variants.find? fun v => Text.sameName v.1 label).map (·.2)

def hasOrdinal (e : EnumType) (ordinal : Int) : Bool := e.variants.any fun v => v.2.val == ordinal

end EnumType

/-- What a column holds, apart from null. -/
inductive Kind
  | bool
  | int (w : Width)
  | single
  | double
  | decimal
  | text
  | timeSpan
  | dateTime
  | offsetDateTime
  | bytes
  | guid
  | enum (e : EnumType)
  deriving DecidableEq

def Width.name : Width → String
  | .i8 => "i8" | .i16 => "i16" | .i32 => "i32" | .i64 => "i64"
  | .u8 => "u8" | .u16 => "u16" | .u32 => "u32"

def Width.all : List Width := [.i8, .i16, .i32, .i64, .u8, .u16, .u32]

def Width.ofName? (name : String) : Option Width := all.find? fun w => w.name == name

namespace Kind

def name : Kind → String
  | bool => "bool"
  | int w => w.name
  | single => "f32"
  | double => "f64"
  | decimal => "Decimal"
  | text => "String"
  | timeSpan => "TimeDelta"
  | dateTime => "NaiveDateTime"
  | offsetDateTime => "DateTime<FixedOffset>"
  | bytes => "Vec<u8>"
  | guid => "Uuid"
  | enum e => e.name

def isText : Kind → Bool
  | text => true
  | _ => false

end Kind

inductive Value
  | null
  | bool (b : Bool)
  | int {w : Width} (n : Sized w)
  | single (x : Single)
  | double (x : Double)
  | decimal (d : Decimal)
  | text (s : String)
  | timeSpan (s : TimeSpan)
  | dateTime (t : DateTime)
  | offsetDateTime (t : OffsetDateTime)
  | bytes (b : List UInt8)
  | guid (g : Guid)
  | enum (e : EnumType) (ordinal : Sized .i64)
  deriving DecidableEq, Inhabited

namespace Value

def isNull : Value → Bool
  | null => true
  | _ => false

/-- The kind of a value other than null. -/
def kind? : Value → Option Kind
  | null => none
  | bool _ => some .bool
  | @int w _ => some (.int w)
  | single _ => some .single
  | double _ => some .double
  | decimal _ => some .decimal
  | text _ => some .text
  | timeSpan _ => some .timeSpan
  | dateTime _ => some .dateTime
  | offsetDateTime _ => some .offsetDateTime
  | bytes _ => some .bytes
  | guid _ => some .guid
  | enum e _ => some (.enum e)

def typeName (v : Value) : String := (v.kind?.map Kind.name).getD "null"

def text? : Value → Option String
  | text s => some s
  | _ => none

def bool? : Value → Option Bool
  | bool b => some b
  | _ => none

/-- Integers of every width, and ordinals. -/
def int? : Value → Option (Sized .i64)
  | int n => some n.widen
  | enum _ n => some n
  | _ => none

def guid? : Value → Option Guid
  | guid g => some g
  | _ => none

end Value

/-- How a comparison of strings treats case and culture. -/
inductive Comparison
  | currentCulture | currentCultureIgnoreCase
  | invariantCulture | invariantCultureIgnoreCase
  | ordinal | ordinalIgnoreCase
  deriving DecidableEq, Repr

namespace Comparison

def ignoresCase : Comparison → Bool
  | currentCultureIgnoreCase | invariantCultureIgnoreCase | ordinalIgnoreCase => true
  | _ => false

def all : List Comparison :=
  [currentCulture, currentCultureIgnoreCase, invariantCulture, invariantCultureIgnoreCase,
    ordinal, ordinalIgnoreCase]

def name : Comparison → String
  | currentCulture => "CurrentCulture"
  | currentCultureIgnoreCase => "CurrentCultureIgnoreCase"
  | invariantCulture => "InvariantCulture"
  | invariantCultureIgnoreCase => "InvariantCultureIgnoreCase"
  | ordinal => "Ordinal"
  | ordinalIgnoreCase => "OrdinalIgnoreCase"

def code : Comparison → Nat
  | currentCulture => 0 | currentCultureIgnoreCase => 1
  | invariantCulture => 2 | invariantCultureIgnoreCase => 3
  | ordinal => 4 | ordinalIgnoreCase => 5

def ofCode? (code : Int) : Option Comparison := all.find? fun c => (c.code : Int) == code

end Comparison

end RowLedger
