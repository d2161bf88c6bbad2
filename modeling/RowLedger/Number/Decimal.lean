import RowLedger.Number.Binary
import RowLedger.Text.Numeral

/-!
Decimals of at most 96 bits with up to 28 places: reading them from text, and the double that is
stored for them.
-/

namespace RowLedger

/-- The mantissa has 96 bits. -/
abbrev Decimal.mantissaLimit : Nat := 0x1000000000000000000000000

/-- `mantissa / 10 ^ scale`. -/
structure Decimal where
  mantissa : Int
  scale : Nat
  mantissa_lt : mantissa.natAbs < Decimal.mantissaLimit
  scale_le : scale ≤ 28
  deriving DecidableEq

namespace Decimal

def make? (mantissa : Int) (scale : Nat) : Option Decimal :=
  if h : mantissa.natAbs < mantissaLimit ∧ scale ≤ 28 then some ⟨mantissa, scale, h.1, h.2⟩
  else none

def ofInt64 (n : Int) (h : n.natAbs ≤ 9223372036854775808) : Decimal :=
  ⟨n, 0, Nat.lt_of_le_of_lt h (by decide), by omega⟩

def zero : Decimal := ⟨0, 0, by decide, by decide⟩

instance : Inhabited Decimal := ⟨zero⟩

/-- The text read so far: the digits, the places after the point, whether the point was seen. -/
structure Progress where
  data : Nat
  scale : Nat
  point : Bool
  digit : Bool

/-- The first character that no longer fits decides the rounding, and the rest is not looked at. -/
def roundOff (p : Progress) (next : Char) : Option (Nat × Nat) :=
  let up : Option Bool :=
    if next.isDigit then some (5 ≤ Text.digitValue next)
    else if next = '_' || next = '.' then some false
    else none
  match up with
  | none => none
  | some false => some (p.data, p.scale)
  | some true =>
    if p.data + 1 < mantissaLimit then some (p.data + 1, p.scale)
    else if p.scale = 0 then none
    else some ((p.data + 5) / 10, p.scale - 1)

/-- Digits, at most one point, and underscores after the first digit. -/
def readDigits (p : Progress) : List Char → Option (Nat × Nat)
  | [] => if p.digit then some (p.data, p.scale) else none
  | c :: cs =>
    if p.point && 28 ≤ p.scale then roundOff p c
    else if c.isDigit then
      let data := 10 * p.data + Text.digitValue c
      if data < mantissaLimit then
        readDigits { p with data, scale := if p.point then p.scale + 1 else 0, digit := true } cs
      else if p.point then roundOff p c
      else none
    else if c = '.' && !p.point then readDigits { p with point := true } cs
    else if c = '_' && p.digit then readDigits p cs
    else none

def readPlain? (cs : List Char) : Option Decimal :=
  let (negative, body) := match cs with
    | '-' :: r => (true, r)
    | '+' :: r => (false, r)
    | r => (false, r)
  (readDigits ⟨0, 0, false, false⟩ body).bind fun (data, scale) =>
    make? (if negative then -(data : Int) else data) scale

/-- Shifts the point by an exponent; past the last place the digits grow instead. -/
def shift? (d : Decimal) (exponent : List Char) : Option Decimal :=
  match exponent with
  | '-' :: e =>
    (Text.readUnsigned? e).bind fun e => if e ≤ 28 then make? d.mantissa (d.scale + e) else none
  | e =>
    (Text.readUnsigned? e).bind fun e =>
      if e ≤ d.scale then make? d.mantissa (d.scale - e)
      else if e ≤ 28 then make? (d.mantissa * Nat.pow 10 (e - d.scale)) 0
      else none

def isExponentMark (c : Char) : Bool := c == 'e' || c == 'E'

def readScientific? (cs : List Char) : Option Decimal :=
  match cs.dropWhile (fun c => !isExponentMark c) with
  | [] => none
  | _ :: e => (readPlain? (cs.takeWhile fun c => !isExponentMark c)).bind fun d => shift? d e

def read? (cs : List Char) : Option Decimal :=
  (readPlain? cs).orElse fun _ => readScientific? cs

/-- A whole number goes to the nearest double. Otherwise the whole part and the fraction are
converted apart, added, and rounded to the places of the decimal in double arithmetic. -/
def toDouble (d : Decimal) : Double :=
  if d.scale = 0 then Binary.ofInt .double d.mantissa
  else
    let unit := Nat.pow 10 d.scale
    let ofNat (n : Nat) : Double := Binary.ofInt .double n
    let whole := ofNat (d.mantissa.natAbs / unit)
    let part := (ofNat (d.mantissa.natAbs % unit)).divSizes (ofNat unit)
    let size :=
      if part.magnitude = 0 then whole
      else (((whole.addSizes part).mulSizes (ofNat unit)).roundSize).divSizes (ofNat unit)
    if d.mantissa < 0 then size.neg else size

end Decimal

end RowLedger
