import RowLedger.Text.Numeral

/-!
Days of the proleptic Gregorian calendar, counted from the first of January 1970. The years
are bounded on both sides.
-/

namespace RowLedger

namespace Calendar

def isLeap (year : Int) : Bool := year % 4 == 0 && (year % 100 != 0 || year % 400 == 0)

def monthLength (year : Int) (month : Nat) : Nat :=
  if month = 2 then (if isLeap year then 29 else 28)
  else if month = 4 ∨ month = 6 ∨ month = 9 ∨ month = 11 then 30
  else 31

def leastYear : Int := -262143

def greatestYear : Int := 262142

def Exists (year : Int) (month day : Nat) : Prop :=
  (leastYear ≤ year ∧ year ≤ greatestYear) ∧
    1 ≤ month ∧ month ≤ 12 ∧ 1 ≤ day ∧ day ≤ monthLength year month

instance (year : Int) (month day : Nat) : Decidable (Exists year month day) :=
  inferInstanceAs (Decidable (_ ∧ _))

end Calendar

structure Date where
  year : Int
  month : Nat
  day : Nat
  exist : Calendar.Exists year month day
  deriving DecidableEq

namespace Date

def make? (year : Int) (month day : Nat) : Option Date :=
  if h : Calendar.Exists year month day then some ⟨year, month, day, h⟩ else none

def epoch : Date := ⟨1970, 1, 1, by decide⟩

instance : Inhabited Date := ⟨epoch⟩

/-- Counts from March, so that the leap day comes last. -/
def dayNumber (d : Date) : Int :=
  let y := if d.month ≤ 2 then d.year - 1 else d.year
  let era := y / 400
  let yearOfEra := y % 400
  let month : Int := if d.month ≤ 2 then d.month + 9 else d.month - 3
  let dayOfYear := (153 * month + 2) / 5 + d.day - 1
  era * 146097 + (yearOfEra * 365 + yearOfEra / 4 - yearOfEra / 100 + dayOfYear) - 719468

def ofDayNumber (n : Int) : Date :=
  let z := n + 719468
  let era := z / 146097
  let dayOfEra := z % 146097
  let yearOfEra :=
    (dayOfEra - dayOfEra / 1460 + dayOfEra / 36524 - dayOfEra / 146096) / 365
  let dayOfYear := dayOfEra - (365 * yearOfEra + yearOfEra / 4 - yearOfEra / 100)
  let month := (5 * dayOfYear + 2) / 153
  let day := dayOfYear - (153 * month + 2) / 5 + 1
  let month := if month < 10 then month + 3 else month - 9
  let year := yearOfEra + era * 400 + (if month ≤ 2 then 1 else 0)
  (make? year month.toNat day.toNat).getD epoch

/-- Four digits; years that need more, or a sign, are written with one. -/
def yearDigits (year : Int) : List Char :=
  let size := Text.padLeft 4 '0' (Text.natDigits year.natAbs)
  if 0 ≤ year ∧ year ≤ 9999 then size else (if year < 0 then '-' else '+') :: size

/-- Year, month and day, joined by hyphens. -/
def isoDigits (d : Date) : List Char :=
  yearDigits d.year ++ '-' :: Text.twoDigits d.month ++ '-' :: Text.twoDigits d.day

end Date

end RowLedger
