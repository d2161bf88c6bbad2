import RowLedger.Database.Arithmetic
import RowLedger.Database.Fault

/-! The functions of terms: those of single values, and those that gather a column of them. -/

namespace RowLedger

inductive Function
  | abs | coalesce | concat | hex | instr | length | like | lower | nullIf | replace | round
  | substr
  | trim | trimLeft | trimRight | typeOf | upper
  | greatest | least
  deriving DecidableEq, Repr

inductive Aggregate
  | count | sum | total | average | greatest | least
  deriving DecidableEq, Repr

namespace Datum

def absolute : Datum → Except Fault Datum
  | null => .ok null
  | integer n =>
    if n.val = Width.i64.least then .error .integerOverflow else .ok (ofInt n.val.natAbs)
  | d =>
    match d.number with
    | real x => .ok (real (if x.isNegative then x.neg else x))
    | n => .ok (real (Binary.ofInt .double n.whole.val.natAbs))

/-- Characters up to the first null character, or bytes. -/
def size : Datum → Datum
  | blob b => ofInt b.length
  | d =>
    match d.text? with
    | some s => ofInt (s.toList.takeWhile (· != '\x00')).length
    | none => null

def onText (f : List Char → List Char) (d : Datum) : Datum :=
  match d.text? with
  | some s => text (String.ofList (f s.toList))
  | none => null

/-- The position of the first occurrence, counted from one; zero if there is none. -/
def positionIn {α : Type} [BEq α] (needle : List α) : List α → Nat
  | [] => if needle.isEmpty then 1 else 0
  | c :: cs =>
    if needle.isPrefixOf (c :: cs) then 1
    else match positionIn needle cs with
      | 0 => 0
      | n + 1 => n + 2

def position (haystack needle : Datum) : Datum :=
  match haystack, needle with
  | blob a, blob b => ofInt (positionIn b a)
  | a, b =>
    match a.text?, b.text? with
    | some s, some t => ofInt (positionIn t.toList s.toList)
    | _, _ => null

/-- Puts `new` in the place of each occurrence of `old`, from left to right. -/
def replaceAll (old new : List Char) : Nat → List Char → List Char
  | 0, cs => cs
  | _, [] => []
  | fuel + 1, c :: cs =>
    if old.isPrefixOf (c :: cs) then new ++ replaceAll old new fuel ((c :: cs).drop old.length)
    else c :: replaceAll old new fuel cs

def replace (d old new : Datum) : Datum :=
  match d.text?, old.text?, new.text? with
  | some s, some o, some n =>
    if o.isEmpty then text s
    else text (String.ofList (replaceAll o.toList n.toList s.length s.toList))
  | _, _, _ => null

/-- The part that starts at a position counted from one, or from the end if that is negative; of a
negative length, what precedes the position. -/
def part {α : Type} (start : Int) (length? : Option Int) (xs : List α) : List α :=
  let size : Int := xs.length
  -- the first position counted from zero; what lies before the front is lost
  let first := if 0 < start then start - 1 else if start < 0 then size + start else -1
  let length : Int := length?.getD (max size (size - first))
  let low := if length < 0 then first + length else first
  let high := if length < 0 then first else first + length
  (xs.drop (max low 0).toNat).take (max high 0 - max low 0).toNat

def substring (d start : Datum) (length? : Option Datum) : Datum :=
  if d.isNull || start.isNull || (length?.map isNull).getD false then null
  else
    let start := start.number.whole.val
    let length := length?.map fun l => l.number.whole.val
    match d with
    | blob b => blob (part start length b)
    | d => d.onText (part start length)

/-- Drops characters of a set at the ends; blanks if no set is given. -/
def trimmed (left right : Bool) (d : Datum) (set : Option Datum) : Datum :=
  let among : Option (List Char) :=
    match set with
    | none => some [' ']
    | some s => s.text?.map String.toList
  match among with
  | none => null
  | some cs =>
    let drop (front : Bool) (s : List Char) : List Char :=
      if front then s.dropWhile cs.contains else s
    d.onText fun s => (drop right (drop left s).reverse).reverse

def typeName : Datum → String
  | null => "null"
  | integer _ => "integer"
  | real _ => "real"
  | text _ => "text"
  | blob _ => "blob"

def bytes : Datum → List UInt8
  | blob b => b
  | d => (d.text?.getD "").toUTF8.toList

/-- A percent sign stands for any characters and a low line for one; letters match without case. -/
def matchesPattern : List Char → List Char → Bool
  | [], s => s.isEmpty
  | '%' :: p, [] => matchesPattern p []
  | '%' :: p, c :: s => matchesPattern p (c :: s) || matchesPattern ('%' :: p) s
  | '_' :: p, _ :: s => matchesPattern p s
  | c :: p, d :: s => c.toLower == d.toLower && matchesPattern p s
  | _ :: _, [] => false
termination_by p s => p.length + s.length

def like (d pattern : Datum) : Datum :=
  match d.text?, pattern.text? with
  | some s, some p => ofBool (matchesPattern p.toList s.toList)
  | _, _ => null

/-- The texts of all values together, null being empty. -/
def joined (ds : List Datum) : Datum := text (String.join (ds.map fun d => d.text?.getD ""))

/-- A number with that many decimals, a half going away from zero. -/
def roundedTo (places : Int) (d : Datum) : Datum :=
  match d.number with
  | null => null
  | integer n => real (Binary.ofInt .double n.val)
  | d =>
    if !d.isFinite then d
    else
      let (num, den) := d.fraction
      let scale := Nat.pow 10 (min places 30).toNat
      ofSignedFraction (num.sign * ((2 * num.natAbs * scale + den) / (2 * den) : Nat)) scale

/-- The value that stands furthest in a direction, null if one is null. -/
def furthest (c : Collation) (further : Ordering) (ds : List Datum) : Datum :=
  if ds.any isNull then null
  else (ds.foldl (fun best d => match best with
    | none => some d
    | some b => some (if d.order c b == further then d else b)) none).getD null

end Datum

namespace Function

/-- A function by its name, with the numbers of arguments that it takes. -/
def all : List (String × List Nat × Function) :=
  [ ("abs", [1], abs), ("hex", [1], hex), ("instr", [2], instr), ("length", [1], length),
    ("lower", [1], lower), ("ifnull", [2], coalesce), ("nullif", [2], nullIf),
    ("concat", List.range 100 |>.drop 1, concat), ("like", [2], like), ("round", [1, 2], round),
    ("replace", [3], replace), ("substr", [2, 3], substr), ("substring", [2, 3], substr),
    ("trim", [1, 2], trim), ("ltrim", [1, 2], trimLeft), ("rtrim", [1, 2], trimRight),
    ("typeof", [1], typeOf), ("upper", [1], upper),
    ("coalesce", List.range 100 |>.drop 2, coalesce),
    ("max", List.range 100 |>.drop 2, greatest), ("min", List.range 100 |>.drop 2, least) ]

def apply (c : Collation) : Function → List Datum → Except Fault Datum
  | abs, [d] => d.absolute
  | coalesce, ds => .ok ((ds.find? fun d => !d.isNull).getD .null)
  | concat, ds => .ok (Datum.joined ds)
  | like, [pattern, d] => .ok (d.like pattern)
  | round, [d] => .ok (d.roundedTo 0)
  | round, [d, places] =>
    .ok (if places.isNull then .null else d.roundedTo places.number.whole.val)
  | hex, [d] => .ok (.text (String.ofList ((Text.byteDigits d.bytes).map Char.toUpper)))
  | instr, [a, b] => .ok (a.position b)
  | length, [d] => .ok d.size
  | lower, [d] => .ok (d.onText (·.map Char.toLower))
  | upper, [d] => .ok (d.onText (·.map Char.toUpper))
  | nullIf, [a, b] => .ok (if !a.isNull && !b.isNull && a.order c b == .eq then .null else a)
  | replace, [d, a, b] => .ok (d.replace a b)
  | substr, [d, start] => .ok (d.substring start none)
  | substr, [d, start, count] => .ok (d.substring start (some count))
  | trim, d :: set => .ok (d.trimmed true true set.head?)
  | trimLeft, d :: set => .ok (d.trimmed true false set.head?)
  | trimRight, d :: set => .ok (d.trimmed false true set.head?)
  | typeOf, [d] => .ok (.text d.typeName)
  | greatest, ds => .ok (Datum.furthest c .gt ds)
  | least, ds => .ok (Datum.furthest c .lt ds)
  | _, _ => .ok .null

end Function

namespace Aggregate

def all : List (String × Aggregate) :=
  [ ("count", count), ("sum", sum), ("total", total), ("avg", average), ("max", greatest),
    ("min", least) ]

def ofName? (s : String) : Option Aggregate :=
  (all.find? fun e => Text.sameName e.1 s).map (·.2)

/-- The sum as a real number. -/
def realSum (ds : List Datum) : Datum :=
  ds.foldl Datum.add (.real (Binary.zero .double))

def wholeSum? (ds : List Datum) : Option Int :=
  ds.foldlM (fun n d => match d with
    | .integer m => some (n + m.val)
    | _ => none) 0

/-- Nulls do not count. -/
def apply (c : Collation) (a : Aggregate) (ds : List Datum) : Except Fault Datum :=
  let ds := ds.filter fun d => !d.isNull
  match a with
  | count => .ok (.ofInt ds.length)
  | total => .ok (realSum ds)
  | average => .ok (if ds.isEmpty then .null else (realSum ds).divide (.ofInt ds.length))
  | greatest => .ok (Datum.furthest c .gt ds)
  | least => .ok (Datum.furthest c .lt ds)
  | sum =>
    if ds.isEmpty then .ok .null
    else match wholeSum? ds with
      | none => .ok (realSum ds)
      | some n =>
        match Sized.ofInt? .i64 n with
        | some n => .ok (.integer n)
        | none => .error .integerOverflow

end Aggregate

end RowLedger
