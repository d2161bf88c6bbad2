import RowLedger.Error
import RowLedger.Number.Reading
import RowLedger.Value

/-! Field values to stored values and back: each kind has one stored form and reads several. -/

namespace RowLedger

namespace Value

/-- Labels for enumerations stored as text; otherwise the ordinal in as few bits as it needs. -/
def storeEnum (e : EnumType) (n : Sized .i64) : Except Error SqlValue :=
  if e.asText then
    match e.label? n with
    | some label => .ok (.text label)
    | none => .error (.unsupportedType (.ordinal e.name n.val))
  else
    match Sized.ofInt? .i32 n.val with
    | some m => .ok (.int m)
    | none => .ok (.bigInt n)

/-- The narrow widths are bound as 32 bits, the others as 64. -/
def storeInt {w : Width} (n : Sized w) : SqlValue :=
  if h : w.isNarrow = true then .int ⟨n.val, n.fits.narrow h⟩ else .bigInt n.widen

def toSql : Value → Except Error SqlValue
  | null => .ok .null
  | bool b => .ok (.int (if b then ⟨1, by decide⟩ else ⟨0, by decide⟩))
  | int n => .ok (storeInt n)
  | single x => .ok (.real (x.toFormat .double))
  | double x => .ok (.real x)
  | decimal d => .ok (.real d.toDouble)
  | text s => .ok (.text s)
  | timeSpan s => .ok (.text s.text)
  | dateTime t => .ok (.text (String.ofList t.stored))
  | offsetDateTime t =>
    match t.instant.ticks? with
    | some n => .ok (.bigInt n)
    | none => .error (.unsupportedType (.instant t.text))
  | bytes b => .ok (.blob b)
  | guid g => .ok (.text g.text)
  | enum e n => storeEnum e n

end Value

namespace Decode

variable (name : String)

def integerText? (s : String) : Option (Sized .i64) :=
  (Text.readInt? (Text.trim s.toList)).bind (Sized.ofInt? .i64)

/-- Integers, numbers without a fraction brought into 64 bits, and numerals. -/
def integer (v : SqlValue) : Except Error (Sized .i64) :=
  match v with
  | .int n => .ok n.widen
  | .bigInt n => .ok n
  | .real x =>
    match x.toInt? with
    | some n => .ok (Sized.clamp .i64 n)
    | none => .error (.unreadable name (.native .real))
  | .text s =>
    match integerText? s with
    | some n => .ok n
    | none => .error (.unreadable name (.notInteger s))
  | v => .error (.unreadable name (.native v.native))

def sized (w : Width) (v : SqlValue) : Except Error Value := do
  let n ← integer w.name v
  match Sized.ofInt? w n.val with
  | some m => .ok (.int m)
  | none => .error (.unreadable w.name (.outOfRange n.val))

def bool (v : SqlValue) : Except Error Value :=
  let number := (integer Kind.bool.name v).map fun n => Value.bool (n.val ≠ 0)
  match v with
  | .text s =>
    if Text.sameName s "true" then .ok (.bool true)
    else if Text.sameName s "false" then .ok (.bool false)
    else number
  | _ => number

def float (v : SqlValue) : Except Error Double :=
  match v with
  | .real x => .ok x
  | .int n => .ok (Binary.ofInt .double n.val)
  | .bigInt n => .ok (Binary.ofInt .double n.val)
  | .text s =>
    match Reading.double? (Text.trim s.toList) with
    | some x => .ok x
    | none => .error (.unreadable name (.notNumber s))
  | v => .error (.unreadable name (.native v.native))

def decimalText (s : String) : Except Error Value :=
  match Decimal.read? (Text.trim s.toList) with
  | some d => .ok (.decimal d)
  | none => .error (.unreadable Kind.decimal.name .malformed)

theorem natAbs_le_of_fits {w : Width} (n : Sized w) : n.val.natAbs ≤ 9223372036854775808 := by
  have h := n.fits.widen
  simp only [Width.Holds, Width.least, Width.greatest] at h
  omega

def wholeDecimal {w : Width} (n : Sized w) : Value :=
  .decimal (.ofInt64 n.val (natAbs_le_of_fits n))

/-- A double is read through its shortest text. -/
def decimal (v : SqlValue) : Except Error Value :=
  match v with
  | .text s => decimalText s
  | .int n => .ok (wholeDecimal n)
  | .bigInt n => .ok (wholeDecimal n)
  | v => do decimalText (Shortest.showDouble (← float Kind.decimal.name v))

def ofUtf8? (b : List UInt8) : Option String := String.fromUTF8? ⟨b.toArray⟩

def text (v : SqlValue) : Except Error Value :=
  match v with
  | .null => .ok (.text "")
  | .text s => .ok (.text s)
  | .int n => .ok (.text (Text.showInt n.val))
  | .bigInt n => .ok (.text (Text.showInt n.val))
  | .real x => .ok (.text (Shortest.showDouble x))
  | .blob b =>
    match ofUtf8? b with
    | some s => .ok (.text s)
    | none => .error (.unreadable Kind.text.name .malformed)

def bytes (v : SqlValue) : Except Error Value :=
  match v with
  | .blob b => .ok (.bytes b)
  | .text s => .ok (.bytes s.toUTF8.toList)
  | v => .error (.unreadable Kind.bytes.name (.native v.native))

def guid (v : SqlValue) : Except Error Value :=
  let read : Option Guid → Except Error Value
    | some g => .ok (.guid g)
    | none => .error (.unreadable Kind.guid.name .malformed)
  match v with
  | .text s => read (Guid.read? (Text.trim s.toList))
  | .blob b => read (Guid.ofBytes? b)
  | v => .error (.unreadable Kind.guid.name (.native v.native))

def timeSpan (v : SqlValue) : Except Error Value :=
  match v with
  | .text s =>
    match TimeSpan.read? s.toList with
    | some t => .ok (.timeSpan t)
    | none => .error (.unreadable Kind.timeSpan.name (.notTimeSpan s))
  | v => .error (.unreadable Kind.timeSpan.name (.native v.native))

def dateTime (v : SqlValue) : Except Error Value :=
  match v with
  | .text s =>
    match DateTime.read? s.toList with
    | some t => .ok (.dateTime t)
    | none => .error (.unreadable Kind.dateTime.name (.notDate s))
  | v => .error (.unreadable Kind.dateTime.name (.native v.native))

def offsetDateTime (v : SqlValue) : Except Error Value := do
  let n ← integer Kind.offsetDateTime.name v
  match Instant.ofTicks? n with
  | some t => .ok (.offsetDateTime (.utc t))
  | none => .error (.unreadable Kind.offsetDateTime.name (.ticksOutOfRange n.val))

/-- A label, or else an ordinal as a number or a numeral; the ordinal need not have a label. -/
def enum (e : EnumType) (v : SqlValue) : Except Error Value :=
  match v with
  | .text s =>
    match (e.ordinal? s).orElse fun _ => integerText? s with
    | some n => .ok (.enum e n)
    | none => .error (.unreadable e.name (.unknownLabel s))
  | v => (integer e.name v).map (.enum e)

end Decode

/-- The reader of a kind, which is given null as it comes; enumerations have none. -/
def Kind.decoder? : Kind → Option (SqlValue → Except Error Value)
  | .bool => some Decode.bool
  | .int w => some (Decode.sized w)
  | .single => some fun v => (Decode.float "f32" v).map fun x => .single (x.toFormat .single)
  | .double => some fun v => (Decode.float "f64" v).map .double
  | .decimal => some Decode.decimal
  | .text => some Decode.text
  | .timeSpan => some Decode.timeSpan
  | .dateTime => some Decode.dateTime
  | .offsetDateTime => some Decode.offsetDateTime
  | .bytes => some Decode.bytes
  | .guid => some Decode.guid
  | .enum _ => none

namespace Value

/-- Null is null in every kind. -/
def ofSql (k : Kind) (v : SqlValue) : Except Error Value :=
  if v.isNull then .ok null
  else
    match k, k.decoder? with
    | .enum e, _ => Decode.enum e v
    | _, some decode => decode v
    | k, none => .error (.unreadable k.name .malformed)

def convert (v : Value) (k : Kind) : Except Error Value :=
  if v.isNull then .ok null
  else do ofSql k (← v.toSql)

end Value

/-- What a field is declared as: a kind, and whether it may be absent. -/
structure FieldType where
  kind : Kind
  optional : Bool
  deriving DecidableEq

namespace FieldType

def wrongKind (k : Kind) (v : Value) : Error := .unreadable k.name (.typed v.typeName)

/-- Enumerations take an ordinal of their own from any integer; other kinds only themselves. -/
def readKind (k : Kind) (v : Value) : Except Error Value :=
  match k with
  | .enum e =>
    match v.int? with
    | some n =>
      if e.hasOrdinal n.val then .ok (.enum e n)
      else .error (.unreadable e.name (.unknownOrdinal n.val))
    | none => .error (wrongKind k v)
  | k => if v.kind? = some k then .ok v else .error (wrongKind k v)

/-- The value as the field holds it. -/
def read (t : FieldType) (v : Value) : Except Error Value :=
  if t.optional && v.isNull then .ok v else readKind t.kind v

end FieldType

end RowLedger
