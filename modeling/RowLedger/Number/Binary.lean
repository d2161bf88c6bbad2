/-!
Binary floating numbers as bit patterns over exact integers: what a pattern denotes, and the
pattern nearest to a fraction, a tie going to the even one.
-/

namespace RowLedger

/-- An interchange format: the widths of the fraction and of the exponent. -/
structure Format where
  fraction : Nat
  exponent : Nat
  deriving DecidableEq

namespace Format

abbrev single : Format := ⟨23, 8⟩

abbrev double : Format := ⟨52, 11⟩

def width (f : Format) : Nat := f.fraction + f.exponent + 1

/-- The exponent of the last place of the smallest numbers. -/
def leastExponent (f : Format) : Int := 2 - (Nat.pow 2 (f.exponent - 1) + f.fraction : Nat)

/-- The pattern of infinity, without its sign. -/
def infinity (f : Format) : Nat := (Nat.pow 2 f.exponent - 1) * Nat.pow 2 f.fraction

end Format

structure Binary (f : Format) where
  bits : BitVec f.width
  deriving DecidableEq

abbrev Double := Binary .double

abbrev Single := Binary .single

namespace Binary

variable {f : Format}

def isNegative (x : Binary f) : Bool := Nat.pow 2 (f.fraction + f.exponent) ≤ x.bits.toNat

/-- The pattern without its sign. -/
def magnitude (x : Binary f) : Nat := x.bits.toNat % Nat.pow 2 (f.fraction + f.exponent)

def isNaN (x : Binary f) : Bool := f.infinity < x.magnitude

def isInfinite (x : Binary f) : Bool := x.magnitude == f.infinity

def isFinite (x : Binary f) : Bool := x.magnitude < f.infinity

def field (x : Binary f) : Nat := x.magnitude / Nat.pow 2 f.fraction

/-- A finite number is its significand times two to its exponent, up to the sign. -/
def significand (x : Binary f) : Nat :=
  x.magnitude % Nat.pow 2 f.fraction + (if x.field = 0 then 0 else Nat.pow 2 f.fraction)

def exponent (x : Binary f) : Int := f.leastExponent + (x.field - 1 : Nat)

def ofMagnitude (f : Format) (negative : Bool) (m : Nat) : Binary f :=
  ⟨BitVec.ofNat _ (m + if negative then Nat.pow 2 (f.fraction + f.exponent) else 0)⟩

def infinite (f : Format) (negative : Bool) : Binary f := ofMagnitude f negative f.infinity

def nan (f : Format) : Binary f := ofMagnitude f false (f.infinity + Nat.pow 2 (f.fraction - 1))

def zero (f : Format) : Binary f := ofMagnitude f false 0

instance : Inhabited (Binary f) := ⟨zero f⟩

/-- The whole number nearest to a fraction, a tie going to the even one. -/
def nearestEven (num den : Nat) : Nat :=
  let q := num / den
  let r := num % den
  if 2 * r < den then q
  else if den < 2 * r then q + 1
  else if q % 2 = 0 then q else q + 1

/-- A fraction as numerator and denominator; two to a negative power goes below. -/
abbrev Fraction := Nat × Nat

def scaled (m : Nat) (e : Int) : Fraction := (m * Nat.pow 2 e.toNat, Nat.pow 2 (-e).toNat)

/-- The greatest `e` with `2 ^ e` at most the positive fraction. -/
def log2Fraction (num den : Nat) : Int :=
  let l : Int := (num.log2 : Int) - den.log2
  if den * Nat.pow 2 l.toNat ≤ num * Nat.pow 2 (-l).toNat then l else l - 1

/-- The pattern nearest to a fraction. The last place is chosen first; a carry out of the
significand moves to the next exponent by itself, for patterns count upwards across exponents. -/
def ofFraction (f : Format) (negative : Bool) (num den : Nat) : Binary f :=
  if num = 0 then ofMagnitude f negative 0
  else
    let e := max f.leastExponent (log2Fraction num den - f.fraction)
    let q := nearestEven (num * Nat.pow 2 (-e).toNat) (den * Nat.pow 2 e.toNat)
    ofMagnitude f negative (min f.infinity ((e - f.leastExponent).toNat * Nat.pow 2 f.fraction + q))

/-- The size of a finite number. -/
def toFraction (x : Binary f) : Fraction := scaled x.significand x.exponent

/-- The same number in another format, or the nearest there is. -/
def toFormat (g : Format) (x : Binary f) : Binary g :=
  if x.isNaN then nan g
  else if x.isInfinite then infinite g x.isNegative
  else ofFraction g x.isNegative x.toFraction.1 x.toFraction.2

def ofInt (f : Format) (n : Int) : Binary f := ofFraction f (n < 0) n.natAbs 1

/-- The whole number that a pattern denotes, if it denotes one. -/
def toInt? (x : Binary f) : Option Int :=
  if !x.isFinite then none
  else
    let (num, den) := x.toFraction
    let size : Int := (num / den : Nat)
    if num % den = 0 then some (if x.isNegative then -size else size) else none

def neg (x : Binary f) : Binary f := ofMagnitude f (!x.isNegative) x.magnitude

/-- The sum of two finite numbers that are not negative, rounded. -/
def addSizes (x y : Binary f) : Binary f :=
  let (a, b) := x.toFraction
  let (c, d) := y.toFraction
  ofFraction f false (a * d + c * b) (b * d)

def mulSizes (x y : Binary f) : Binary f :=
  let (a, b) := x.toFraction
  let (c, d) := y.toFraction
  ofFraction f false (a * c) (b * d)

def divSizes (x y : Binary f) : Binary f :=
  let (a, b) := x.toFraction
  let (c, d) := y.toFraction
  ofFraction f false (a * d) (b * c)

/-- The nearest whole number to a finite number that is not negative, a half going up. -/
def roundSize (x : Binary f) : Binary f :=
  let (a, b) := x.toFraction
  ofFraction f false ((2 * a + b) / (2 * b)) 1

/-- The order of the numbers denoted; not a number is below all, and both zeros are one. -/
def key (x : Binary f) : Int :=
  if x.isNaN then -(f.infinity + 1 : Nat)
  else if x.isNegative then -(x.magnitude : Int) else x.magnitude

end Binary

end RowLedger
