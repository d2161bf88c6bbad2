import RowLedger.Number.Binary
import RowLedger.Text.Numeral

/-! Reading a double from decimal text, rounded correctly whatever its length. -/

namespace RowLedger.Reading

/-- `digits * 10 ^ exp`, with the extremes cut off before the power is taken. -/
def ofScientific (negative : Bool) (digits : Nat) (exp : Int) : Double :=
  let size := exp + (Text.natDigits digits).length
  if digits = 0 || size < -400 then Binary.ofMagnitude .double negative 0
  else if size > 400 then Binary.infinite .double negative
  else Binary.ofFraction .double negative (digits * Nat.pow 10 exp.toNat) (Nat.pow 10 (-exp).toNat)

/-- The exponent after its mark. -/
def exponent? : List Char → Option Int
  | [] => some 0
  | c :: cs => if c = 'e' || c = 'E' then Text.readInt? cs else none

/-- Digits with at most one point among or around them, and an optional exponent. -/
def unsigned? (negative : Bool) (cs : List Char) : Option Double :=
  let whole := cs.takeWhile Char.isDigit
  let rest := cs.dropWhile Char.isDigit
  let (part, rest) := match rest with
    | '.' :: r => (r.takeWhile Char.isDigit, r.dropWhile Char.isDigit)
    | r => ([], r)
  if whole.isEmpty && part.isEmpty then none
  else (exponent? rest).map fun e =>
    ofScientific negative (Text.digitsValue (whole ++ part)) (e - part.length)

def special? (negative : Bool) (cs : List Char) : Option Double :=
  let word := String.ofList (cs.map Char.toLower)
  if word = "inf" || word = "infinity" then some (Binary.infinite .double negative)
  else if word = "nan" then some (Binary.nan .double)
  else none

def double? (cs : List Char) : Option Double :=
  let (negative, body) := match cs with
    | '-' :: r => (true, r)
    | '+' :: r => (false, r)
    | r => (false, r)
  (special? negative body).orElse fun _ => unsigned? negative body

end RowLedger.Reading
