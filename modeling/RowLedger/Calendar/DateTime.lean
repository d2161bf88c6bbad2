import RowLedger.Calendar.Date
import RowLedger.Text.Blank

/-!
A date with a time of day: the month-first text it is stored as, and the texts it is read from.
-/

namespace RowLedger

/-- Nanoseconds from a thousand million on count through a leap second, which follows second 59. -/
structure TimeOfDay where
  second : Nat
  nano : Nat
  second_lt : second < 86400
  nano_lt : nano < 1000000000 ∨ (nano < 2000000000 ∧ second % 60 = 59)
  deriving DecidableEq

namespace TimeOfDay

def make? (second nano : Nat) : Option TimeOfDay :=
  if h : second < 86400 ∧ (nano < 1000000000 ∨ (nano < 2000000000 ∧ second % 60 = 59)) then
    some ⟨second, nano, h.1, h.2⟩
  else none

def midnight : TimeOfDay := ⟨0, 0, by decide, by decide⟩

def hour (t : TimeOfDay) : Nat := t.second / 3600

def minute (t : TimeOfDay) : Nat := t.second / 60 % 60

/-- The leap second is shown as second 60. -/
def shownSecond (t : TimeOfDay) : Nat := t.second % 60 + t.nano / 1000000000

def clockDigits (t : TimeOfDay) : List Char :=
  Text.twoDigits t.hour ++ ':' :: Text.twoDigits t.minute ++ ':' :: Text.twoDigits t.shownSecond

/-- Nothing, or the fewest of three, six or nine places that are exact. -/
def fractionDigits (t : TimeOfDay) : List Char :=
  let n := t.nano % 1000000000
  if n = 0 then []
  else if n % 1000000 = 0 then '.' :: Text.padLeft 3 '0' (Text.natDigits (n / 1000000))
  else if n % 1000 = 0 then '.' :: Text.padLeft 6 '0' (Text.natDigits (n / 1000))
  else '.' :: Text.padLeft 9 '0' (Text.natDigits n)

end TimeOfDay

structure DateTime where
  date : Date
  time : TimeOfDay
  deriving DecidableEq

namespace DateTime

def epoch : DateTime := ⟨Date.epoch, TimeOfDay.midnight⟩

instance : Inhabited DateTime := ⟨epoch⟩

/-- Month, day and year, then the clock; the fraction of the second is not stored. -/
def stored (t : DateTime) : List Char :=
  Text.twoDigits t.date.month ++ '/' :: Text.twoDigits t.date.day ++ '/' ::
    Date.yearDigits t.date.year ++ ' ' :: t.time.clockDigits

/-- A part of a date's layout. -/
inductive Part
  | year | month | day | hour | minute | second | fraction | blank
  | mark (c : Char)
  deriving DecidableEq

/-- The numbers read so far. -/
structure Fields where
  year : Int := 0
  month : Nat := 0
  day : Nat := 0
  hour : Nat := 0
  minute : Nat := 0
  second : Nat := 0
  nano : Nat := 0

/-- At least one digit and at most `most`, with the rest of the text. -/
def takeNumber? (most : Nat) (cs : List Char) : Option (Nat × List Char) :=
  let digits := (cs.take most).takeWhile Char.isDigit
  if digits.isEmpty then none else some (Text.digitsValue digits, cs.drop digits.length)

/-- A number may follow white space. -/
def takeField? (cs : List Char) : Option (Nat × List Char) :=
  takeNumber? 2 (cs.dropWhile Text.isBlank)

/-- Four digits at most, or any number of them after a sign. -/
def takeYear? (cs : List Char) : Option (Int × List Char) :=
  match cs.dropWhile Text.isBlank with
  | '-' :: r => (takeNumber? r.length r).map fun (n, r) => (-(n : Int), r)
  | '+' :: r => (takeNumber? r.length r).map fun (n, r) => ((n : Int), r)
  | r => (takeNumber? 4 r).map fun (n, r) => ((n : Int), r)

/-- An optional point with digits, of which nine count. -/
def takeFraction? (cs : List Char) : Option (Nat × List Char) :=
  match cs with
  | '.' :: r =>
    let digits := r.takeWhile Char.isDigit
    if digits.isEmpty then none
    else some (Text.digitsValue (Text.padRight 9 '0' (digits.take 9)), r.dropWhile Char.isDigit)
  | r => some (0, r)

def takePart? (part : Part) (f : Fields) (cs : List Char) : Option (Fields × List Char) :=
  match part with
  | .year => (takeYear? cs).map fun (n, r) => ({ f with year := n }, r)
  | .month => (takeField? cs).map fun (n, r) => ({ f with month := n }, r)
  | .day => (takeField? cs).map fun (n, r) => ({ f with day := n }, r)
  | .hour => (takeField? cs).map fun (n, r) => ({ f with hour := n }, r)
  | .minute => (takeField? cs).map fun (n, r) => ({ f with minute := n }, r)
  | .second => (takeField? cs).map fun (n, r) => ({ f with second := n }, r)
  | .fraction => (takeFraction? cs).map fun (n, r) => ({ f with nano := n }, r)
  | .blank => some (f, cs.dropWhile Text.isBlank)
  | .mark c => match cs with
    | d :: r => if d = c then some (f, r) else none
    | [] => none

def takeParts? : List Part → Fields → List Char → Option Fields
  | [], f, cs => if cs.isEmpty then some f else none
  | p :: ps, f, cs => (takePart? p f cs).bind fun (f, r) => takeParts? ps f r

/-- The date must exist, and second 60 is the leap second after second 59. -/
def ofFields? (f : Fields) : Option DateTime := do
  if 23 < f.hour || 59 < f.minute || 60 < f.second then none
  let date ← Date.make? f.year f.month f.day
  let leap := f.second = 60
  let second := f.hour * 3600 + f.minute * 60 + (if leap then 59 else f.second)
  let time ← TimeOfDay.make? second (f.nano + if leap then 1000000000 else 0)
  return ⟨date, time⟩

def clockParts : List Part := [.hour, .mark ':', .minute, .mark ':', .second]

def storedLayout : List Part := [.month, .mark '/', .day, .mark '/', .year, .blank] ++ clockParts

def isoLayout (between : Part) : List Part :=
  [.year, .mark '-', .month, .mark '-', .day, between] ++ clockParts ++ [.fraction]

/-- The stored form, or year first with a blank or a `T` before the clock. -/
def layouts : List (List Part) := [storedLayout, isoLayout .blank, isoLayout (.mark 'T')]

def read? (cs : List Char) : Option DateTime :=
  layouts.findSome? fun layout => (takeParts? layout {} (Text.trim cs)).bind ofFields?

end DateTime

end RowLedger
