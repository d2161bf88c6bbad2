import RowLedger.Number.Reading
import RowLedger.Stored
import RowLedger.Text.Blank

/-!
The values in the rows of a database: how each is written as text, which numbers texts hold, and
how values stand in order.
-/

namespace RowLedger

inductive Datum
  | null
  | integer (n : Sized .i64)
  | real (x : Double)
  | text (s : String)
  | blob (b : List UInt8)
  deriving DecidableEq, Inhabited

namespace Datum

/-- What is not a number is null. -/
def ofReal (x : Double) : Datum := if x.isNaN then null else real x

/-- A whole number, which becomes a real one where it does not fit. -/
def ofInt (n : Int) : Datum :=
  match Sized.ofInt? .i64 n with
  | some n => integer n
  | none => real (Binary.ofInt .double n)

def ofBool (b : Bool) : Datum := ofInt (if b then 1 else 0)

def ofSql : SqlValue → Datum
  | .null => null
  | .int n => integer n.widen
  | .bigInt n => integer n
  | .real x => ofReal x
  | .text s => text s
  | .blob b => blob b

def toSql : Datum → SqlValue
  | null => .null
  | integer n => .bigInt n
  | real x => .real x
  | text s => .text s
  | blob b => .blob b

def isNull : Datum → Bool
  | null => true
  | _ => false

/-! Texts. -/

/-- A decimal of fifteen digits nearest to a number that is not zero, a half going up. -/
def fifteenDigits (x : Double) : Shortest.Decimal10 :=
  let i := Shortest.decimalExponent x.significand x.exponent - 15
  let (low, upward) := Shortest.neighbours x.significand x.exponent i
  ⟨if upward then low + 1 else low, i⟩

def orZero (cs : List Char) : List Char := if cs.isEmpty then ['0'] else cs

/-- Digits with a point after the first and an exponent. -/
def withExponent (ds : List Char) (e : Int) : List Char :=
  ds.take 1 ++ '.' :: orZero (ds.drop 1) ++ 'e' :: (if e < 0 then '-' else '+') ::
    Text.twoDigits e.natAbs

/-- Digits with a point in its place, where the first stands for that power of ten. -/
def withPoint (ds : List Char) (e : Int) : List Char :=
  if e < 0 then '0' :: '.' :: (List.replicate (e.natAbs - 1) '0' ++ ds)
  else
    let whole := e.toNat + 1
    Text.padRight whole '0' (ds.take whole) ++ '.' :: orZero (ds.drop whole)

/-- Fifteen digits without the zeros at their end, and always a point. -/
def realText (x : Double) : String :=
  let body : List Char :=
    if x.isInfinite then ['I', 'n', 'f']
    else if x.magnitude = 0 then ['0', '.', '0']
    else
      let d := fifteenDigits x
      let ds := Text.natDigits d.digits
      let e : Int := d.exp + ds.length - 1
      let ds := (ds.reverse.dropWhile (· == '0')).reverse
      if e < -4 || 14 < e then withExponent ds e else withPoint ds e
  String.ofList (if x.isNegative && x.magnitude != 0 then '-' :: body else body)

def text? : Datum → Option String
  | null => none
  | integer n => some (Text.showInt n.val)
  | real x => some (realText x)
  | text s => some s
  | blob b => some ((String.fromUTF8? ⟨b.toArray⟩).getD "")

/-! Numbers in texts. -/

def isSpace (c : Char) : Bool := c == ' ' || ('\t' ≤ c && c ≤ '\r')

/-- An exponent with at least one digit, and the rest. -/
def scanExponent (cs : List Char) : Option (Int × List Char) :=
  match cs with
  | [] => none
  | mark :: r =>
    let (negative, r) := match r with
      | '-' :: r => (true, r)
      | '+' :: r => (false, r)
      | r => (false, r)
    let ds := r.takeWhile Char.isDigit
    if (mark == 'e' || mark == 'E') && !ds.isEmpty then
      let n : Int := Text.digitsValue ds
      some (if negative then -n else n, r.dropWhile Char.isDigit)
    else none

/-- The longest numeral without a sign at the front of a text, and the rest. -/
def scanUnsigned (negative : Bool) (cs : List Char) : Option (Datum × List Char) :=
  let whole := cs.takeWhile Char.isDigit
  let (pointed, part, rest) := match cs.dropWhile Char.isDigit with
    | '.' :: r => (true, r.takeWhile Char.isDigit, r.dropWhile Char.isDigit)
    | r => (false, [], r)
  if whole.isEmpty && part.isEmpty then none
  else
    let digits := Text.digitsValue (whole ++ part)
    match scanExponent rest with
    | some (e, rest) => some (real (Reading.ofScientific negative digits (e - part.length)), rest)
    | none =>
      if pointed then
        some (real (Reading.ofScientific negative digits (-(part.length : Int))), rest)
      else some (ofInt (if negative then -(digits : Int) else digits), rest)

def scanNumber : List Char → Option (Datum × List Char)
  | '-' :: cs => scanUnsigned true cs
  | '+' :: cs => scanUnsigned false cs
  | cs => scanUnsigned false cs

/-- The number that a text is, with blanks around it. -/
def ofNumeral? (s : String) : Option Datum :=
  match scanNumber (s.toList.dropWhile isSpace) with
  | some (d, rest) => if rest.all isSpace then some d else none
  | none => none

/-- The number that a value counts as: of a text the numeral at its front, else zero. -/
def number : Datum → Datum
  | text s => ((scanNumber (s.toList.dropWhile isSpace)).map (·.1)).getD (ofInt 0)
  | blob b => ((scanNumber (b.map fun x => Char.ofNat x.toNat)).map (·.1)).getD (ofInt 0)
  | d => d

/-- Null is neither true nor false. -/
def truth? (d : Datum) : Option Bool :=
  match d.number with
  | integer n => some (n.val != 0)
  | real x => some (x.magnitude != 0)
  | _ => none

/-- The whole part of a number, as far as it fits. -/
def whole : Datum → Sized .i64
  | integer n => n
  | real x =>
    let (num, den) := x.toFraction
    let size : Int := if x.isFinite then (num / den : Nat) else 9223372036854775808
    Sized.clamp .i64 (if x.isNegative then -size else size)
  | _ => Sized.zero .i64

/-! Order. -/

/-- A whole number against a real one, exactly. -/
def compareReal (n : Int) (x : Double) : Ordering :=
  if x.isInfinite then if x.isNegative then .gt else .lt
  else
    let (num, den) := x.toFraction
    compare (n * den) (if x.isNegative then -(num : Int) else num)

end Datum

/-- How texts compare. -/
inductive Collation
  | binary
  /-- ASCII letters without their case. -/
  | noCase
  /-- Without the blanks at the end. -/
  | rightTrim
  deriving DecidableEq, Repr

namespace Collation

def ofName? (s : String) : Option Collation :=
  [("binary", binary), ("nocase", noCase), ("rtrim", rightTrim)].lookup
    (String.ofList (Text.foldAscii s))

/-- Texts compare as their keys do. -/
def key : Collation → String → String
  | binary, s => s
  | noCase, s => String.ofList (Text.foldAscii s)
  | rightTrim, s => String.ofList (s.toList.reverse.dropWhile (· == ' ')).reverse

end Collation

namespace Datum

/-- Nulls come first, then numbers, then texts, then bytes. -/
def rank : Datum → Nat
  | null => 0
  | integer _ | real _ => 1
  | text _ => 2
  | blob _ => 3

def order (c : Collation) : Datum → Datum → Ordering
  | integer m, integer n => compare m.val n.val
  | integer n, real x => compareReal n.val x
  | real x, integer n => (compareReal n.val x).swap
  | real x, real y => compare x.key y.key
  | text s, text t => compare (c.key s) (c.key t)
  | blob a, blob b => compare a b
  | a, b => compare a.rank b.rank

end Datum

end RowLedger
