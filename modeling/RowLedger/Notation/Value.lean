import RowLedger.Json.Basic
import RowLedger.Samples

/-!
Values in JSON: null stands for itself, every other value is a list that starts with its kind.
Integers are decimal texts, and floating-point numbers are the hexadecimal digits of their bits.
-/

namespace RowLedger

namespace Json

def sized? (w : Width) (j : Json) : Option (Sized w) := j.asInt?.bind (Sized.ofInt? w)

def bits? (f : Format) (s : String) : Option (Binary f) :=
  (Text.readHex? s.toList).map fun n => ⟨BitVec.ofNat _ n⟩

/-- NaN has one spelling only. -/
def bits {f : Format} (x : Binary f) : Json :=
  if x.isNaN then text "nan"
  else text (String.ofList (Text.hexDigits (f.width / 4) x.bits.toNat))

def bytes? (s : String) : Option (List UInt8) := Text.readBytes? s.toList

def bytes (b : List UInt8) : Json :=
  text (String.ofList (Text.byteDigits b))

end Json

open Json

namespace EnumType

def variant? (j : Json) : Option (String × Sized .i64) := do
  match j.asItems with
  | [label, n] => return (← label.asText?, ← sized? .i64 n)
  | _ => none

/-- The name of a sample, or a name with labels and ordinals. -/
def ofJson? (j : Json) : Option EnumType :=
  match j.asText? with
  | some s => Samples.enum? s
  | none => do
    return ⟨← j.text? "enum", j.flag "text", ← (j.items "variants").mapM variant?⟩

end EnumType

namespace Kind

def named : List (String × Kind) :=
  Width.all.map (fun w => (w.name, int w)) ++
    [ ("bool", bool), ("f32", single), ("f64", double), ("decimal", decimal), ("string", text),
      ("timespan", timeSpan), ("datetime", dateTime), ("offset", offsetDateTime),
      ("bytes", bytes), ("guid", guid) ]

def ofJson? (j : Json) : Option Kind :=
  (j.asText?.bind fun s => named.lookup s).orElse fun _ => (EnumType.ofJson? j).map enum

end Kind

namespace TimeSpan

/-- Whole seconds and nanoseconds. -/
def ofJson? (j : Json) : Option TimeSpan := do
  match j.asItems with
  | [s, n] => make? ((← s.asInt?) * 1000000000 + (← n.asInt?))
  | _ => none

def toJson (s : TimeSpan) : Json :=
  .array [.numeral (s.nanos / 1000000000), .int (s.nanos % 1000000000)]

end TimeSpan

def Date.toParts (d : Date) (second nano : Nat) : List Json :=
  [.int d.year, .nat d.month, .nat d.day, .nat (second / 3600), .nat (second / 60 % 60),
    .nat (second % 60), .nat nano]

namespace DateTime

/-- Year, month, day, hour, minute, second and nanosecond. -/
def ofParts? (js : List Json) : Option DateTime := do
  match ← js.mapM asInt? with
  | [y, mo, d, h, mi, s, n] =>
    return ⟨← Date.make? y mo.toNat d.toNat,
      ← TimeOfDay.make? (h * 3600 + mi * 60 + s).toNat n.toNat⟩
  | _ => none

def toJson (t : DateTime) : Json := .array (t.date.toParts t.time.second t.time.nano)

end DateTime

namespace OffsetDateTime

/-- Local time and the offset in seconds. -/
def ofJson? (j : Json) : Option OffsetDateTime := do
  ofLocal? (← DateTime.ofParts? (j.asItems.take 7)) (← (← j.asItems[7]?).asInt?)

def toJson (t : OffsetDateTime) : Json :=
  let (date, second, nano) := t.localParts
  .array (date.toParts second nano ++ [.int t.offset])

end OffsetDateTime

namespace Value

def ofTagged? (tag : String) (body : Json) : Option Value := do
  match tag, body with
  | "bool", .bool b => some (bool b)
  | "f32", .string s => return single (← bits? _ (← s))
  | "f64", .string s => return double (← bits? _ (← s))
  | "string", .string s => return text (← s)
  | "timespan", j => return timeSpan (← TimeSpan.ofJson? j)
  | "datetime", j => return dateTime (← DateTime.ofParts? j.asItems)
  | "offset", j => return offsetDateTime (← OffsetDateTime.ofJson? j)
  | "bytes", .string s => return bytes (← bytes? (← s))
  | "guid", .string s => return guid (← Guid.read? (← s).toList)
  | tag, j => return int (← sized? (← Width.ofName? tag) j)

def ofJson? (j : Json) : Option Value := do
  match j.asItems with
  | [] => if j.isNull then some null else none
  | [tag, body] => ofTagged? (← tag.asText?) body
  | [tag, a, b] =>
    match ← tag.asText? with
    | "decimal" => return decimal (← Decimal.make? (← a.asInt?) (← b.asNat?))
    | "enum" => return enum (← EnumType.ofJson? a) (← sized? .i64 b)
    | _ => none
  | _ => none

def toJson : Value → Json
  | null => .null
  | bool b => .array [.text "bool", .bool b]
  | @int w n => .array [.text w.name, .numeral n.val]
  | single x => .array [.text "f32", .bits x]
  | double x => .array [.text "f64", .bits x]
  | decimal d => .array [.text "decimal", .numeral d.mantissa, .nat d.scale]
  | text s => .array [.text "string", .text s]
  | timeSpan s => .array [.text "timespan", s.toJson]
  | dateTime t => .array [.text "datetime", t.toJson]
  | offsetDateTime t => .array [.text "offset", t.toJson]
  | bytes b => .array [.text "bytes", .bytes b]
  | guid g => .array [.text "guid", .text g.text]
  | enum e n => .array [.text "enum", .text e.name, .numeral n.val]

end Value

namespace SqlValue

def ofJson? (j : Json) : Option SqlValue := do
  match j.asItems with
  | [] => if j.isNull then some null else none
  | [tag, body] =>
    match ← tag.asText?, body with
    | "int", n => return int (← sized? .i32 n)
    | "bigint", n => return bigInt (← sized? .i64 n)
    | "float", .string s => return real (← bits? _ (← s))
    | "text", .string s => return text (← s)
    | "blob", .string s => return blob (← bytes? (← s))
    | _, _ => none
  | _ => none

def toJson : SqlValue → Json
  | null => .null
  | int n => .array [.text "int", .numeral n.val]
  | bigInt n => .array [.text "bigint", .numeral n.val]
  | real x => .array [.text "float", .bits x]
  | text s => .array [.text "text", .text s]
  | blob b => .array [.text "blob", .bytes b]

end SqlValue

namespace Param

/-- Without a name the parameter goes by its position. -/
def ofJson? (j : Json) : Option Param := do
  return ⟨(j.text? "name").getD "", ← SqlValue.ofJson? (j.member "value")⟩

def toJson (p : Param) : Json := .array [.text p.name, p.value.toJson]

end Param

end RowLedger
