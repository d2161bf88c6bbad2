import RowLedger.Database.Datum

/-! How the declared type of a column changes what is put into it. -/

namespace RowLedger

/-- What the declared type of a column prefers to store. -/
inductive Affinity
  | blob | text | numeric | integer | real
  deriving DecidableEq, Repr

namespace Affinity

/-- The first of these words that the name of a type contains decides. -/
def ofType (type : String) : Affinity :=
  let type := Text.foldAscii type
  let has (word : String) : Bool := Text.occursIn word.toList type
  if has "int" then integer
  else if has "char" || has "clob" || has "text" then text
  else if has "blob" || type.isEmpty then blob
  else if has "real" || has "floa" || has "doub" then real
  else numeric

def isNumeric : Affinity → Bool
  | numeric | integer | real => true
  | _ => false

/-- A real number without a fraction becomes whole, but for the least whole number. -/
def wholeIfExact (d : Datum) : Datum :=
  match d with
  | .real x =>
    match x.toInt?.bind (Sized.ofInt? .i64) with
    | some n => if n.val = Width.i64.least then d else .integer n
    | none => d
  | d => d

/-- A text that is a numeral becomes the number. -/
def numberIfNumeral : Datum → Datum
  | .text s => (Datum.ofNumeral? s).getD (.text s)
  | d => d

/-- What a column stores of a value. -/
def store (a : Affinity) (d : Datum) : Datum :=
  match a with
  | blob => d
  | text =>
    match d with
    | .integer _ | .real _ => (d.text?.map Datum.text).getD d
    | d => d
  | numeric | integer => wholeIfExact (numberIfNumeral d)
  | real =>
    match wholeIfExact (numberIfNumeral d) with
    | .integer n => .real (Binary.ofInt .double n.val)
    | d => d

end Affinity

end RowLedger
