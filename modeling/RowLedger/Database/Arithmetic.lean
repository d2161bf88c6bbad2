import RowLedger.Database.Affinity
import RowLedger.Database.Statement

/-! What the operators between values give. An operand that is null gives null. -/

namespace RowLedger

namespace Datum

/-- A finite number as a fraction with its sign. -/
def signedFraction (x : Double) : Int × Nat :=
  let (num, den) := x.toFraction
  (if x.isNegative then -(num : Int) else num, den)

def ofSignedFraction (num : Int) (den : Nat) : Datum :=
  real (Binary.ofFraction .double (num < 0) num.natAbs den)

def isFinite : Datum → Bool
  | real x => x.isFinite
  | _ => true

def fraction : Datum → Int × Nat
  | integer n => (n.val, 1)
  | real x => signedFraction x
  | _ => (0, 1)

/-- An operation on finite numbers, done exactly and rounded once. -/
def rounded (f : Int × Nat → Int × Nat → Option (Int × Nat)) (a b : Datum) : Datum :=
  if a.isFinite && b.isFinite then
    match f a.fraction b.fraction with
    | some (num, den) => ofSignedFraction num den
    | none => null
  else null

/-- Whole numbers stay whole if the result fits. -/
def arithmetic (onInts : Int → Int → Option Int)
    (onFractions : Int × Nat → Int × Nat → Option (Int × Nat)) (a b : Datum) : Datum :=
  match a.number, b.number with
  | null, _ | _, null => null
  | integer m, integer n =>
    match onInts m.val n.val with
    | none => null
    | some r =>
      match Sized.ofInt? .i64 r with
      | some r => integer r
      | none => rounded onFractions (integer m) (integer n)
  | a, b => rounded onFractions a b

def add : Datum → Datum → Datum :=
  arithmetic (fun m n => some (m + n)) fun (a, b) (c, d) => some (a * d + c * b, b * d)

def subtract : Datum → Datum → Datum :=
  arithmetic (fun m n => some (m - n)) fun (a, b) (c, d) => some (a * d - c * b, b * d)

def multiply : Datum → Datum → Datum :=
  arithmetic (fun m n => some (m * n)) fun (a, b) (c, d) => some (a * c, b * d)

/-- Between whole numbers toward zero; nothing divides by zero. -/
def divide : Datum → Datum → Datum :=
  arithmetic (fun m n => if n = 0 then none else some (m.tdiv n)) fun (a, b) (c, d) =>
    if c = 0 then none else some (a * d * c.sign, b * c.natAbs)

/-- An operation on the whole parts of two numbers. -/
def onWholes (f : Int → Int → Datum) (a b : Datum) : Datum :=
  match a.number, b.number with
  | null, _ | _, null => null
  | a, b => f a.whole.val b.whole.val

def remainder : Datum → Datum → Datum :=
  onWholes fun m n => if n = 0 then null else ofInt (m.tmod n)

def ofWord (w : BitVec 64) : Datum := ofInt w.toInt

def bitAnd : Datum → Datum → Datum :=
  onWholes fun m n => ofWord (BitVec.ofInt 64 m &&& BitVec.ofInt 64 n)

def bitOr : Datum → Datum → Datum :=
  onWholes fun m n => ofWord (BitVec.ofInt 64 m ||| BitVec.ofInt 64 n)

/-- A negative amount shifts the other way. -/
def shiftBy (m amount : Int) : Datum :=
  let w := BitVec.ofInt 64 m
  if 0 ≤ amount then ofWord (w <<< (min amount 64).toNat)
  else ofWord (w.sshiftRight (min (-amount) 64).toNat)

def shiftLeft : Datum → Datum → Datum := onWholes shiftBy

def shiftRight : Datum → Datum → Datum := onWholes fun m n => shiftBy m (-n)

def complement (d : Datum) : Datum :=
  match d.number with
  | null => null
  | d => ofWord (~~~(BitVec.ofInt 64 d.whole.val))

def negate (d : Datum) : Datum :=
  match d.number with
  | real x => real x.neg
  | d => subtract (ofInt 0) d

def concat (a b : Datum) : Datum :=
  match a.text?, b.text? with
  | some s, some t => text (s ++ t)
  | _, _ => null

/-! Truth. -/

def ofTruth : Option Bool → Datum
  | some b => ofBool b
  | none => null

/-- False whatever the other operand is, if one is false. -/
def both (a b : Option Bool) : Option Bool :=
  match a, b with
  | some false, _ | _, some false => some false
  | some true, some true => some true
  | _, _ => none

def either (a b : Option Bool) : Option Bool := (both (a.map (!·)) (b.map (!·))).map (!·)

/-- How a comparison brings its operands together. -/
structure Comparing where
  /-- None where no operand is a column. -/
  affinity : Option Affinity
  collation : Collation
  deriving DecidableEq

def isText : Datum → Bool
  | text _ => true
  | _ => false

/-- The operands of a comparison as they are compared: a numeral beside a number becomes one, a
number beside a text becomes a text, if a column asks for it. -/
def adapted (affinity : Option Affinity) (a b : Datum) : Datum × Datum :=
  match affinity with
  | none | some .blob => (a, b)
  | some .text =>
    if a.isText || b.isText then (Affinity.text.store a, Affinity.text.store b) else (a, b)
  | some _ => (Affinity.numberIfNumeral a, Affinity.numberIfNumeral b)

def compared (c : Comparing) (a b : Datum) : Ordering :=
  let (a, b) := adapted c.affinity a b
  a.order c.collation b

/-- A comparison; nothing compares with null. -/
def relates (c : Comparing) (p : Ordering → Bool) (a b : Datum) : Option Bool :=
  if a.isNull || b.isNull then none else some (p (compared c a b))

/-- Null is null. -/
def same (c : Comparing) (a b : Datum) : Bool := compared c a b == .eq

/-- Is the value one of a list? Unknown if it is not, but something is null. -/
def member (c : Comparing) (d : Datum) (list : List Datum) : Option Bool :=
  list.foldr (fun x r => either (relates c (· == .eq) d x) r) (some false)

end Datum

def Operator.apply (op : Operator) (c : Datum.Comparing) (a b : Datum) : Datum :=
  match op with
  | or => .ofTruth (Datum.either a.truth? b.truth?)
  | and => .ofTruth (Datum.both a.truth? b.truth?)
  | is => .ofBool (Datum.same c a b)
  | isNot => .ofBool (!Datum.same c a b)
  | eq => .ofTruth (Datum.relates c (· == .eq) a b)
  | ne => .ofTruth (Datum.relates c (· != .eq) a b)
  | lt => .ofTruth (Datum.relates c (· == .lt) a b)
  | le => .ofTruth (Datum.relates c (· != .gt) a b)
  | gt => .ofTruth (Datum.relates c (· == .gt) a b)
  | ge => .ofTruth (Datum.relates c (· != .lt) a b)
  | bitAnd => a.bitAnd b
  | bitOr => a.bitOr b
  | shiftLeft => a.shiftLeft b
  | shiftRight => a.shiftRight b
  | add => a.add b
  | subtract => a.subtract b
  | multiply => a.multiply b
  | divide => a.divide b
  | remainder => a.remainder b
  | concat => a.concat b

end RowLedger
