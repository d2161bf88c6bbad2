import RowLedger.Calendar.DateTime
import RowLedger.Number.Sized

/-!
Instants with an offset from UTC, and the ticks of 100 ns since year 1 that are stored for them.
-/

namespace RowLedger

namespace Instant

/-- The first second of the least year, counted from 1970. -/
def leastSecond : Int := -8334601228800

/-- The last second of the greatest year. -/
def greatestSecond : Int := 8210266876799

end Instant

/-- Seconds since 1970 in UTC, and nanoseconds that may run through a leap second. -/
structure Instant where
  second : Int
  nano : Nat
  second_ge : Instant.leastSecond ≤ second
  second_le : second ≤ Instant.greatestSecond
  nano_lt : nano < 2000000000
  deriving DecidableEq

namespace Instant

def make? (second : Int) (nano : Nat) : Option Instant :=
  if h : leastSecond ≤ second ∧ second ≤ greatestSecond ∧ nano < 2000000000 then
    some ⟨second, nano, h.1, h.2.1, h.2.2⟩
  else none

def epoch : Instant := ⟨0, 0, by decide, by decide, by decide⟩

instance : Inhabited Instant := ⟨epoch⟩

def epochTicks : Int := 621355968000000000

/-- The tick count, unless a step of the sum leaves 64 bits. -/
def ticks? (t : Instant) : Option (Sized .i64) := do
  let a ← Sized.ofInt? .i64 (t.second * 10000000)
  let b ← Sized.ofInt? .i64 (a.val + epochTicks)
  Sized.ofInt? .i64 (b.val + (t.nano / 100 : Nat))

def ofTicks? (ticks : Sized .i64) : Option Instant :=
  (Sized.ofInt? .i64 (ticks.val - epochTicks)).bind fun n =>
    make? (n.val / 10000000) (n.val % 10000000 * 100).toNat

end Instant

/-- An instant as seen from a place `offset` seconds east of UTC, less than a day. -/
structure OffsetDateTime where
  instant : Instant
  offset : Int
  offset_lt : offset.natAbs < 86400
  deriving DecidableEq

namespace OffsetDateTime

/-- The instant as seen from Greenwich. -/
def utc (t : Instant) : OffsetDateTime := ⟨t, 0, by decide⟩

def epoch : OffsetDateTime := utc .epoch

instance : Inhabited OffsetDateTime := ⟨epoch⟩

def ofLocal? (t : DateTime) (offset : Int) : Option OffsetDateTime :=
  if h : offset.natAbs < 86400 then
    (Instant.make? (t.date.dayNumber * 86400 + t.time.second - offset) t.time.nano).map fun i =>
      ⟨i, offset, h⟩
  else none

/-- The local date, the local second of the day and the nanoseconds. -/
def localParts (t : OffsetDateTime) : Date × Nat × Nat :=
  let s := t.instant.second + t.offset
  (Date.ofDayNumber (s / 86400), (s % 86400).toNat, t.instant.nano)

/-- Hours and minutes east of UTC with a sign, and the seconds if there are any. -/
def offsetDigits (offset : Int) : List Char :=
  let n := offset.natAbs
  (if offset < 0 then '-' else '+') :: Text.twoDigits (n / 3600) ++
    ':' :: Text.twoDigits (n / 60 % 60) ++
    (if n % 60 = 0 then [] else ':' :: Text.twoDigits (n % 60))

/-- Local date, clock with its fraction, and offset. -/
def text (t : OffsetDateTime) : String :=
  let (date, second, nano) := t.localParts
  let clock := match TimeOfDay.make? second nano with
    | some time => time.clockDigits ++ time.fractionDigits
    | none => []
  String.ofList (date.isoDigits ++ ' ' :: clock ++ ' ' :: offsetDigits t.offset)

end OffsetDateTime

end RowLedger
