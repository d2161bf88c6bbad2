import RowLedger.Json.Basic

/-! Reading JSON strictly: no comments, no stray commas, nothing behind. -/

namespace RowLedger.Json

def isSpace (c : Char) : Bool := c == ' ' || c == '\n' || c == '\t' || c == '\r'

def skipSpace (cs : List Char) : List Char := cs.dropWhile isSpace

def fourHex? (a b c d : Char) : Option Nat := do
  let digits ← [a, b, c, d].mapM Text.hexValue?
  return digits.foldl (fun n x => 16 * n + x) 0

def shortEscape? : Char → Option Char
  | '"' => some '"'
  | '\\' => some '\\'
  | '/' => some '/'
  | 'b' => some '\x08'
  | 'f' => some '\x0c'
  | 'n' => some '\n'
  | 'r' => some '\r'
  | 't' => some '\t'
  | _ => none

/-- The 16-bit units that the body of a string spells, up to its closing quote. Characters beyond
16 bits that stand for themselves are kept whole. -/
def readUnits? : List Char → Option (List Nat × List Char)
  | '"' :: rest => some ([], rest)
  | '\\' :: 'u' :: a :: b :: c :: d :: rest => do
    let n ← fourHex? a b c d
    let (ns, rest) ← readUnits? rest
    return (n :: ns, rest)
  | '\\' :: e :: rest => do
    let c ← shortEscape? e
    let (ns, rest) ← readUnits? rest
    return (c.toNat :: ns, rest)
  | c :: rest =>
    if c.toNat < 32 || c == '\\' then none
    else do
      let (ns, rest) ← readUnits? rest
      return (c.toNat :: ns, rest)
  | [] => none

/-- Joins surrogate pairs; a half without its partner has no text. -/
def joinUnits? : List Nat → Option (List Char)
  | [] => some []
  | n :: ns =>
    if 0xD800 ≤ n ∧ n ≤ 0xDBFF then
      match ns with
      | m :: rest =>
        if 0xDC00 ≤ m ∧ m ≤ 0xDFFF then
          (joinUnits? rest).map (Char.ofNat (0x10000 + (n - 0xD800) * 0x400 + (m - 0xDC00)) :: ·)
        else none
      | [] => none
    else if 0xDC00 ≤ n ∧ n ≤ 0xDFFF then none
    else (joinUnits? ns).map (Char.ofNat n :: ·)

def readString? (cs : List Char) : Option (Option String × List Char) := do
  let (units, rest) ← readUnits? cs
  return ((joinUnits? units).map String.ofList, rest)

/-- Digits without a leading zero. -/
def readWhole? (cs : List Char) : Option (List Char × List Char) :=
  match cs with
  | '0' :: rest => if (rest.head?.map Char.isDigit).getD false then none else some (['0'], rest)
  | _ =>
    let digits := cs.takeWhile Char.isDigit
    if digits.isEmpty then none else some (digits, cs.dropWhile Char.isDigit)

/-- What follows a point or an exponent mark: at least one digit. -/
def dropDigits? (cs : List Char) : Option (List Char) :=
  if (cs.head?.map Char.isDigit).getD false then some (cs.dropWhile Char.isDigit) else none

def dropFraction? : List Char → Option (Bool × List Char)
  | '.' :: rest => (dropDigits? rest).map fun r => (true, r)
  | cs => some (false, cs)

def dropExponent? : List Char → Option (Bool × List Char)
  | c :: rest =>
    if c = 'e' || c = 'E' then
      let rest := match rest with
        | '+' :: r => r
        | '-' :: r => r
        | r => r
      (dropDigits? rest).map fun r => (true, r)
    else some (false, c :: rest)
  | [] => some (false, [])

def readNumber? (cs : List Char) : Option (Json × List Char) := do
  let (negative, body) := match cs with
    | '-' :: r => (true, r)
    | r => (false, r)
  let (digits, rest) ← readWhole? body
  let (fraction, rest) ← dropFraction? rest
  let (exponent, rest) ← dropExponent? rest
  let value : Int := Text.digitsValue digits
  let isWhole := !(fraction || exponent || (negative && value = 0))
  return (number (if isWhole then some (if negative then -value else value) else none), rest)

mutual

/-- A value at the head of the text. The first argument bounds the number of values and separators
still to come, and the length of the text is enough. -/
def readValue? : Nat → List Char → Option (Json × List Char)
  | 0, _ => none
  | bound + 1, cs =>
    match skipSpace cs with
    | 'n' :: 'u' :: 'l' :: 'l' :: rest => some (null, rest)
    | 't' :: 'r' :: 'u' :: 'e' :: rest => some (bool true, rest)
    | 'f' :: 'a' :: 'l' :: 's' :: 'e' :: rest => some (bool false, rest)
    | '"' :: rest => (readString? rest).map fun (s, r) => (string s, r)
    | '[' :: rest =>
      match skipSpace rest with
      | ']' :: r => some (array [], r)
      | r => (readItems? bound r).map fun (js, r) => (array js, r)
    | '\x7b' :: rest =>
      match skipSpace rest with
      | '\x7d' :: r => some (object [], r)
      | r => (readEntries? bound r).map fun (es, r) => (object es, r)
    | cs => readNumber? cs

def readItems? : Nat → List Char → Option (List Json × List Char)
  | 0, _ => none
  | bound + 1, cs => do
    let (j, rest) ← readValue? bound cs
    match skipSpace rest with
    | ',' :: r => (readItems? bound r).map fun (js, r) => (j :: js, r)
    | ']' :: r => some ([j], r)
    | _ => none

def readEntries? : Nat → List Char → Option (List (String × Json) × List Char)
  | 0, _ => none
  | bound + 1, cs =>
    match skipSpace cs with
    | '"' :: rest => do
      let (key, rest) ← readString? rest
      let key ← key
      match skipSpace rest with
      | ':' :: rest => do
        let (j, rest) ← readValue? bound rest
        match skipSpace rest with
        | ',' :: r => (readEntries? bound r).map fun (es, r) => ((key, j) :: es, r)
        | '\x7d' :: r => some ([(key, j)], r)
        | _ => none
      | _ => none
    | _ => none

end

/-- One value with nothing but white space around it. -/
def read? (s : String) : Option Json :=
  match readValue? (s.length + 1) s.toList with
  | some (j, rest) => if (skipSpace rest).isEmpty then some j else none
  | none => none

end RowLedger.Json
