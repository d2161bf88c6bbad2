import RowLedger.Number.Binary
import RowLedger.Text.Numeral

/-! The fewest decimal digits that read back to a finite number, written without an exponent. -/

namespace RowLedger.Shortest

/-- The digits `digits` times ten to `exp`. -/
structure Decimal10 where
  digits : Nat
  exp : Int
  deriving DecidableEq

/-- Compares `a * 10 ^ i` with `n * 2 ^ j` exactly. -/
def compareScaled (a : Nat) (i : Int) (n : Nat) (j : Int) : Ordering :=
  compare (a * Nat.pow 10 i.toNat * Nat.pow 2 (-j).toNat)
    (n * Nat.pow 2 j.toNat * Nat.pow 10 (-i).toNat)

/-- Does the decimal round to `m * 2 ^ q`? The ends of the interval count when `m` is even; the gap
below a power of two is half as wide. -/
def roundsTo (m : Nat) (q : Int) (narrow : Bool) (d : Decimal10) : Bool :=
  let low := compareScaled d.digits d.exp (4 * m - (if narrow then 1 else 2)) (q - 2)
  let high := compareScaled d.digits d.exp (4 * m + 2) (q - 2)
  let closed := m % 2 == 0
  (low == .gt || (closed && low == .eq)) && (high == .lt || (closed && high == .eq))

/-- The least `k` with `m * 2 ^ q < 10 ^ k`, from an estimate that may be one too small. -/
def decimalExponent (m : Nat) (q : Int) : Int :=
  let guess : Int := Int.fdiv ((q + m.log2) * 30103) 100000
  let isAbove (k : Int) : Bool := compareScaled 1 k m q == .gt
  if isAbove (guess - 1) then guess - 1
  else if isAbove guess then guess
  else if isAbove (guess + 1) then guess + 1 else guess + 2

/-- The neighbours of `m * 2 ^ q` among the multiples of `10 ^ i`: the lower one, and whether the
upper one is at least as near. -/
def neighbours (m : Nat) (q i : Int) : Nat × Bool :=
  let num := m * Nat.pow 2 q.toNat * Nat.pow 10 (-i).toNat
  let den := Nat.pow 2 (-q).toNat * Nat.pow 10 i.toNat
  (num / den, den ≤ 2 * (num % den))

/-- The nearest multiple of `10 ^ i` that rounds to `m * 2 ^ q`, a tie going up. -/
def onGrid? (m : Nat) (q : Int) (narrow : Bool) (i : Int) : Option Decimal10 :=
  let (low, upward) := neighbours m q i
  let first : Decimal10 := ⟨if upward then low + 1 else low, i⟩
  let second : Decimal10 := ⟨if upward then low else low + 1, i⟩
  if roundsTo m q narrow first then some first
  else if roundsTo m q narrow second then some second
  else none

/-- Takes the coarsest grid that has a hit; seventeen digits always have one. -/
def select (m : Nat) (q : Int) (narrow : Bool) : Decimal10 :=
  let k := decimalExponent m q
  match (List.range 18).findSome? fun (n : Nat) => onGrid? m q narrow (k - (n + 1)) with
  | some d => d
  | none => ⟨m * Nat.pow 2 q.toNat * Nat.pow 5 (-q).toNat, -(-q).toNat⟩

/-- Writes `digits * 10 ^ exp` with as many zeros as it takes. -/
def positional (d : Decimal10) : List Char :=
  let ds := Text.natDigits d.digits
  if 0 ≤ d.exp then ds ++ List.replicate d.exp.toNat '0'
  else
    let places := d.exp.natAbs
    let ds := Text.padLeft (places + 1) '0' ds
    let whole := ds.take (ds.length - places)
    let part := (ds.drop (ds.length - places)).reverse.dropWhile (· == '0') |>.reverse
    if part.isEmpty then whole else whole ++ '.' :: part

def showSize (x : Double) : List Char :=
  if x.magnitude = 0 then ['0']
  else
    let narrow := x.significand == Nat.pow 2 52 && x.field > 1
    positional (select x.significand x.exponent narrow)

/-- Without an exponent whatever the size; a negative zero keeps its sign. -/
def showDouble (x : Double) : String :=
  if x.isNaN then "NaN"
  else
    let body := if x.isInfinite then "inf" else String.ofList (showSize x)
    if x.isNegative then "-" ++ body else body

end RowLedger.Shortest
