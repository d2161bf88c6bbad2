import RowLedger.Text.Hexadecimal
import RowLedger.Text.Numeral

/-! JSON values: how they are taken apart, put together and written. -/

namespace RowLedger

inductive Json
  | null
  | bool (b : Bool)
  /-- The value, if it is written as a whole number. -/
  | number (whole : Option Int)
  /-- The text, unless an escape names half of a surrogate pair. -/
  | string (s : Option String)
  | array (items : List Json)
  | object (entries : List (String × Json))

namespace Json

/-! Taking apart. -/

/-- A member of an object; null if there is none. -/
def member (j : Json) (key : String) : Json :=
  match j with
  | object entries => (entries.lookup key).getD null
  | _ => null

def isNull : Json → Bool
  | null => true
  | _ => false

def asText? : Json → Option String
  | string s => s
  | _ => none

/-- A whole number, or the decimal text of one. -/
def asInt? : Json → Option Int
  | number n => n
  | string (some s) => Text.readInt? s.toList
  | _ => none

def asNat? (j : Json) : Option Nat := j.asInt?.bind fun n => if 0 ≤ n then some n.toNat else none

def asItems : Json → List Json
  | array items => items
  | _ => []

/-- Absent stays absent; what is there has to be readable. -/
def unlessNull {α : Type} (read : Json → Option α) (j : Json) : Option (Option α) :=
  if j.isNull then some none else (read j).map some

def has (j : Json) (key : String) : Bool := !(j.member key).isNull

def text? (j : Json) (key : String) : Option String := (j.member key).asText?

def int? (j : Json) (key : String) : Option Int := (j.member key).asInt?

def nat? (j : Json) (key : String) : Option Nat := (j.member key).asNat?

def items (j : Json) (key : String) : List Json := (j.member key).asItems

def texts (j : Json) (key : String) : List String := (j.items key).filterMap asText?

/-- Is the member there and true? -/
def flag (j : Json) (key : String) : Bool :=
  match j.member key with
  | bool b => b
  | _ => false

mutual

/-- One more than the longest chain of values inside values. -/
def depth : Json → Nat
  | array items => depthOfItems items + 1
  | object entries => depthOfEntries entries + 1
  | _ => 1

def depthOfItems : List Json → Nat
  | [] => 0
  | j :: js => max (depth j) (depthOfItems js)

def depthOfEntries : List (String × Json) → Nat
  | [] => 0
  | (_, j) :: es => max (depth j) (depthOfEntries es)

end

/-! Putting together. -/

def text (s : String) : Json := string (some s)

def int (n : Int) : Json := number (some n)

def nat (n : Nat) : Json := int n

/-- An integer as a text. -/
def numeral (n : Int) : Json := text (Text.showInt n)

def option {α : Type} (f : α → Json) : Option α → Json
  | some a => f a
  | none => null

def list {α : Type} (f : α → Json) (xs : List α) : Json := array (xs.map f)

/-- An object in the order of its keys. -/
def record (entries : List (String × Json)) : Json :=
  object (entries.mergeSort fun a b => a.1 ≤ b.1)

/-! Writing. -/

def escape (c : Char) : List Char :=
  if c = '"' || c = '\\' then ['\\', c]
  else if c.toNat < 32 then '\\' :: 'u' :: Text.hexDigits 4 c.toNat
  else [c]

def printText (s : String) : String := "\"" ++ String.ofList (s.toList.flatMap escape) ++ "\""

mutual

/-- The value without blanks. -/
def print : Json → String
  | null => "null"
  | bool b => if b then "true" else "false"
  | number n => (n.map Text.showInt).getD "null"
  | string s => (s.map printText).getD "null"
  | array items => "[" ++ String.intercalate "," (printItems items) ++ "]"
  | object entries => "\x7b" ++ String.intercalate "," (printEntries entries) ++ "\x7d"

def printItems : List Json → List String
  | [] => []
  | j :: js => print j :: printItems js

def printEntries : List (String × Json) → List String
  | [] => []
  | (key, j) :: es => (printText key ++ ":" ++ print j) :: printEntries es

end

end Json

end RowLedger
