import RowLedger.Database.Datum
import RowLedger.Text.Delimited
import RowLedger.Text.Hexadecimal

/-!
The tokens of a statement. A text is first cut into lexemes, which together are the whole text;
each lexeme is then classified on its own.
-/

namespace RowLedger

inductive Token
  /-- A keyword or a name that is not quoted. -/
  | word (s : String)
  /-- A quoted name; in double quotes it may be meant as a text. -/
  | name (s : String) (maybeText : Bool)
  | text (s : String)
  | blob (b : List UInt8)
  | number (d : Datum)
  /-- The place of a parameter, which may have a number. -/
  | parameter (number : Option Nat)
  | symbol (s : String)
  | illegal
  deriving DecidableEq

/-- A token as it stands in the text, and the blanks and comments before it. -/
structure Lexeme where
  token : Token
  written : List Char
  gap : List Char := []
  deriving DecidableEq

namespace Lexeme

/-- Does a word start with the character? -/
def startsWord (c : Char) : Bool := c.isAlpha || c == '_' || 0x80 ≤ c.toNat

def inWord (c : Char) : Bool := startsWord c || c.isDigit || c == '$'

/-- The number of characters at the front that satisfy `p`. -/
def runSize (p : Char → Bool) (cs : List Char) : Nat := (cs.takeWhile p).length

/-- The number of characters of a comment after its start, the mark at its end included. -/
def commentSize : List Char → Nat
  | '*' :: '/' :: _ => 2
  | _ :: cs => commentSize cs + 1
  | [] => 0

/-- The number of characters up to the closing mark; all of them if there is none. -/
def quotedSize (close : Char) (cs : List Char) : Nat :=
  match Text.readDoubled? close cs with
  | some (_, rest) => cs.length - rest.length
  | none => cs.length

def exponentSize (cs : List Char) : Nat :=
  match Datum.scanExponent cs with
  | some (_, rest) => cs.length - rest.length
  | none => 0

/-- Letters that follow a numeral belong to it, though they make it illegal. -/
def numeralSize (cs : List Char) : Nat :=
  let whole := runSize Char.isDigit cs
  let rest := cs.drop whole
  let part := match rest with
    | '.' :: r => 1 + runSize Char.isDigit r
    | _ => 0
  let rest := rest.drop part
  let exponent := exponentSize rest
  whole + part + exponent + runSize inWord (rest.drop exponent)

def pairs : List (List Char) :=
  [['|', '|'], ['<', '='], ['<', '>'], ['<', '<'], ['>', '='], ['>', '>'], ['!', '='], ['=', '=']]

/-- The number of characters of the first lexeme after its first character. -/
def sizeAfter (c : Char) (cs : List Char) : Nat :=
  if Datum.isSpace c then runSize Datum.isSpace cs
  else if c == '-' && cs.head? == some '-' then runSize (· != '\n') cs
  else if c == '/' && cs.head? == some '*' then 1 + commentSize (cs.drop 1)
  else if (c == 'x' || c == 'X') && cs.head? == some '\'' then 1 + quotedSize '\'' (cs.drop 1)
  else if startsWord c then runSize inWord cs
  else if c.isDigit || (c == '.' && (cs.head?.map Char.isDigit).getD false) then
    numeralSize (c :: cs) - 1
  else if c == '\'' || c == '"' || c == '\x60' then quotedSize c cs
  else if c == '[' then min cs.length (runSize (· != ']') cs + 1)
  else if c == '?' then runSize Char.isDigit cs
  else if c == '$' then runSize inWord cs
  else if pairs.contains (c :: cs.take 1) then 1
  else 0

/-- Cuts a text into lexemes. -/
def cut : List Char → List (List Char)
  | [] => []
  | c :: cs => (c :: cs.take (sizeAfter c cs)) :: cut (cs.drop (sizeAfter c cs))
termination_by cs => cs.length
decreasing_by simp only [List.length_drop, List.length_cons]; omega

/-- Nothing is lost. -/
theorem flatten_cut (cs : List Char) : (cut cs).flatten = cs := by
  fun_induction cut cs with
  | case1 => rfl
  | case2 c cs ih => simp [ih]

def isGap : List Char → Bool
  | '-' :: '-' :: _ | '/' :: '*' :: _ => true
  | c :: _ => Datum.isSpace c
  | [] => true

/-- What is quoted, if the closing mark is there. -/
def unquoted? (close : Char) (cs : List Char) : Option String :=
  match Text.readDoubled? close cs with
  | some (s, []) => some (String.ofList s)
  | _ => none

def symbols : List Char := "()+-*/%=<>,&~|;.".toList

def classify (cs : List Char) : Token :=
  let orIllegal (t : Option Token) : Token := t.getD .illegal
  match cs with
  | [] => .illegal
  | '\'' :: r => orIllegal ((unquoted? '\'' r).map .text)
  | '"' :: r => orIllegal ((unquoted? '"' r).map (.name · true))
  | '\x60' :: r => orIllegal ((unquoted? '\x60' r).map (.name · false))
  | '[' :: r =>
    if r.getLast? == some ']' then .name (String.ofList r.dropLast) false else .illegal
  | '?' :: r => .parameter (Text.readNat? r)
  | '$' :: r => orIllegal ((Text.readNat? r).map fun n => .parameter (some n))
  | c :: r =>
    if (c == 'x' || c == 'X') && r.head? == some '\'' then
      orIllegal (((unquoted? '\'' (r.drop 1)).bind fun s => Text.readBytes? s.toList).map .blob)
    else if startsWord c then .word (String.ofList cs)
    else if c.isDigit || (c == '.' && !r.isEmpty) then
      match Datum.scanNumber cs with
      | some (d, []) => .number d
      | _ => .illegal
    else if pairs.contains cs || (r.isEmpty && symbols.contains c) then .symbol (String.ofList cs)
    else .illegal

/-- Attaches the gaps to the lexemes after them; those at the end are dropped. -/
def gather (gap : List Char) : List (List Char) → List Lexeme
  | [] => []
  | cs :: rest =>
    if isGap cs then gather (gap ++ cs) rest else ⟨classify cs, cs, gap⟩ :: gather [] rest

def ofText (s : String) : List Lexeme := gather [] (cut s.toList)

/-- What neighbouring lexemes are in the text. -/
def span (ls : List Lexeme) : String :=
  String.ofList
    ((ls.flatMap fun l => l.gap ++ l.written).drop ((ls.head?.map (·.gap.length)).getD 0))

end Lexeme

end RowLedger
