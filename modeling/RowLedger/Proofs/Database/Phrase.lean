import RowLedger.Database.Grammar

/-!
Terms as they are written. A phrase keeps the parentheses of a term, so that several phrases are
written alike, of which only one is read.
-/

namespace RowLedger

namespace Operator

/-- How strongly an operator binds. -/
def strength : Operator → Nat
  | or => 1
  | and => 2
  | is | isNot | eq | ne => 4
  | lt | le | gt | ge => 5
  | bitAnd | bitOr | shiftLeft | shiftRight => 6
  | add | subtract => 7
  | multiply | divide | remainder => 8
  | concat => 9

theorem strength_lt (op : Operator) : op.strength < 10 := by cases op <;> decide

def tokens : Operator → List Token
  | or => [.word "or"]
  | and => [.word "and"]
  | is => [.word "is"]
  | isNot => [.word "is", .word "not"]
  | eq => [.symbol "="]
  | ne => [.symbol "!="]
  | lt => [.symbol "<"]
  | le => [.symbol "<="]
  | gt => [.symbol ">"]
  | ge => [.symbol ">="]
  | bitAnd => [.symbol "&"]
  | bitOr => [.symbol "|"]
  | shiftLeft => [.symbol "<<"]
  | shiftRight => [.symbol ">>"]
  | add => [.symbol "+"]
  | subtract => [.symbol "-"]
  | multiply => [.symbol "*"]
  | divide => [.symbol "/"]
  | remainder => [.symbol "%"]
  | concat => [.symbol "||"]

end Operator

/-- Can the word be the name of a function? -/
def Grammar.IsFree (w : String) : Prop := reserved.any (Text.sameName w) = false

instance (w : String) : Decidable (Grammar.IsFree w) := inferInstanceAs (Decidable (_ = false))

inductive Phrase
  /-- A column in double quotes. -/
  | name (s : String)
  | hole
  | literal (d : Datum)
  | not (p : Phrase)
  | paren (p : Phrase)
  | binary (op : Operator) (a b : Phrase)
  | like (a b : Phrase)
  | among (a : Phrase) (ps : List Phrase)
  | call (function : String) (ps : List Phrase)

namespace Phrase

/-- How strongly the outermost operator binds; above all operators if there is none. -/
def strength : Phrase → Nat
  | not _ => 3
  | binary op _ _ => op.strength
  | like _ _ | among _ _ => 4
  | _ => 10

def isNot : Phrase → Bool
  | not _ => true
  | _ => false

/-- Does a negation reach up to the end? -/
def isOpen : Phrase → Bool
  | not _ => true
  | binary _ _ b | like _ b => b.isOpen
  | _ => false

def literalToken : Datum → Token
  | .null => .word "null"
  | .text s => .text s
  | .blob b => .blob b
  | d => .number d

def separated : List (List Token) → List Token
  | [] => []
  | [ts] => ts
  | ts :: us :: rest => ts ++ .symbol "," :: separated (us :: rest)

mutual

def tokens : Phrase → List Token
  | name s => [.name s true]
  | hole => [.parameter none]
  | literal d => [literalToken d]
  | not p => .word "NOT" :: tokens p
  | paren p => .symbol "(" :: tokens p ++ [.symbol ")"]
  | binary op a b => tokens a ++ op.tokens ++ tokens b
  | like a b => tokens a ++ .word "like" :: tokens b
  | among a ps =>
    tokens a ++ .word "in" :: .symbol "(" :: separated (tokenLists ps) ++ [.symbol ")"]
  | call function ps => .word function :: .symbol "(" :: separated (tokenLists ps) ++ [.symbol ")"]

def tokenLists : List Phrase → List (List Token)
  | [] => []
  | p :: ps => tokens p :: tokenLists ps

end

mutual

/-- The number of parameters. -/
def holes : Phrase → Nat
  | name _ | literal _ => 0
  | hole => 1
  | not p | paren p => holes p
  | binary _ a b | like a b => holes a + holes b
  | among a ps => holes a + holesOfAll ps
  | call _ ps => holesOfAll ps

def holesOfAll : List Phrase → Nat
  | [] => 0
  | p :: ps => holes p + holesOfAll ps

end

mutual

/-- The term without the parentheses. Parameters are numbered from left to right after those that
were asked for before. -/
def term : Phrase → Nat → NamedTerm
  | name s, _ => .column { name := s, maybeText := true }
  | hole, n => .parameter (n + 1)
  | literal d, _ => .literal d
  | not p, n => .not (term p n)
  | paren p, n => term p n
  | binary op a b, n => .binary op (term a n) (term b (n + holes a))
  | like a b, n => .like (term a n) (term b (n + holes a))
  | among a ps, n => .among (term a n) (terms ps (n + holes a))
  | call function ps, n => .call function (terms ps n)

def terms : List Phrase → Nat → List NamedTerm
  | [], _ => []
  | p :: ps, n => term p n :: terms ps (n + holes p)

end

/-- May the phrase stand on the left of an operator of that strength? A negation would take the
operator in. -/
def FitsLeft (strength : Nat) (a : Phrase) : Prop :=
  strength ≤ a.strength ∧ (4 ≤ strength → a.isOpen = false)

/-- May the phrase stand on the right of an operator of that strength? -/
def FitsRight (strength : Nat) (b : Phrase) : Prop := strength < b.strength ∨ b.isNot = true

mutual

/-- Parentheses stand wherever the strengths of operators would group otherwise. -/
def Grouped : Phrase → Prop
  | name _ | hole | literal _ => True
  | not p => FitsRight 3 p ∧ Grouped p
  | paren p => Grouped p
  | binary op a b =>
    FitsLeft op.strength a ∧ FitsRight op.strength b ∧ (op = .is → b.isNot = false) ∧
      Grouped a ∧ Grouped b
  | like a b => FitsLeft 4 a ∧ FitsRight 4 b ∧ Grouped a ∧ Grouped b
  | among a ps => FitsLeft 4 a ∧ Grouped a ∧ GroupedAll ps
  | call function ps => Grammar.IsFree function ∧ GroupedAll ps

def GroupedAll : List Phrase → Prop
  | [] => True
  | p :: ps => Grouped p ∧ GroupedAll ps

end

end Phrase

end RowLedger
