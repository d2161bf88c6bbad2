import RowLedger.Number.Sized
import RowLedger.Text.Blank
import RowLedger.Text.Numeral

/-! Signed spans of time, written with days, clock and ticks of 100 ns. -/

namespace RowLedger

/-- Nanoseconds; as many milliseconds as 63 bits hold bound the size. -/
structure TimeSpan where
  nanos : Int
  bounded : nanos.natAbs ≤ 9223372036854775807 * 1000000
  deriving DecidableEq

namespace TimeSpan

def make? (nanos : Int) : Option TimeSpan :=
  if h : nanos.natAbs ≤ 9223372036854775807 * 1000000 then some ⟨nanos, h⟩ else none

def zero : TimeSpan := ⟨0, by decide⟩

instance : Inhabited TimeSpan := ⟨zero⟩

def neg (s : TimeSpan) : TimeSpan := ⟨-s.nanos, by simpa using s.bounded⟩

/-- Days are left out when there are none, and ticks likewise; what is finer than a tick is cut. -/
def digits (s : TimeSpan) : List Char :=
  let n := s.nanos.natAbs
  let seconds := n / 1000000000
  let ticks := n % 1000000000 / 100
  let days := seconds / 86400
  (if s.nanos < 0 then ['-'] else []) ++
    (if days = 0 then [] else Text.natDigits days ++ ['.']) ++
    Text.twoDigits (seconds % 86400 / 3600) ++ ':' ::
    Text.twoDigits (seconds % 3600 / 60) ++ ':' :: Text.twoDigits (seconds % 60) ++
    (if ticks = 0 then [] else '.' :: Text.padLeft 7 '0' (Text.natDigits ticks))

def text (s : TimeSpan) : String := String.ofList s.digits

/-- A number of 64 bits with an optional sign. -/
def readPart? (cs : List Char) : Option Int :=
  (Text.readInt? cs).bind fun n => (Sized.ofInt? .i64 n).map Sized.val

/-- At most seven digits, counted as tenths, hundredths and so on. -/
def readFraction? (cs : List Char) : Option Nat :=
  if cs.length ≤ 7 && cs.all Char.isDigit then
    some (Text.digitsValue (Text.padRight 7 '0' cs))
  else none

/-- Every product and partial sum has to stay within 64 bits. -/
def totalSeconds? (days hours minutes seconds : Int) : Option Int := do
  let step (n : Int) : Option Int := (Sized.ofInt? .i64 n).map Sized.val
  let d ← step (days * 86400)
  let h ← step (hours * 3600)
  let dh ← step (d + h)
  let m ← step (minutes * 60)
  let dhm ← step (dh + m)
  step (dhm + seconds)

/-- Days come before a point that precedes the first colon. -/
def splitDays? (cs : List Char) : Option (Int × List Char) :=
  match Text.splitFirst? (· == ':') cs with
  | none => none
  | some (before, _) =>
    match Text.splitFirst? (· == '.') before with
    | some (days, _) => (readPart? days).map fun d => (d, cs.drop (days.length + 1))
    | none => some (0, cs)

def readUnsigned? (cs : List Char) : Option TimeSpan := do
  let (days, clock) ← splitDays? cs
  let (hms, ticks) ← match Text.splitFirst? (· == '.') clock with
    | some (hms, fraction) => (readFraction? fraction).map fun t => (hms, t)
    | none => some (clock, 0)
  match Text.splitAll (· == ':') hms with
  | [h, m, s] =>
    let total ← totalSeconds? days (← readPart? h) (← readPart? m) (← readPart? s)
    let whole ← make? (total * 1000000000)
    make? (whole.nanos + (ticks * 100 : Nat))
  | _ => none

def read? (cs : List Char) : Option TimeSpan :=
  match Text.trim cs with
  | '-' :: rest => (readUnsigned? rest).map neg
  | rest => readUnsigned? rest

end TimeSpan

end RowLedger
