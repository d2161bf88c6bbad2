import RowLedger.Proofs.Database.Lexing
import RowLedger.Proofs.Database.Regrouping
import RowLedger.Proofs.Predicate.Layout

/-!
The phrase that is written for a predicate: each function of the builder gives an operator or a
call, and the operands are those that the function was given.
-/

namespace RowLedger

def BinaryOp.operator : BinaryOp → Operator
  | eq => .eq
  | ne => .ne
  | lt => .lt
  | le => .le
  | gt => .gt
  | ge => .ge
  | bitAnd => .bitAnd
  | bitOr => .bitOr
  | and => .and
  | or => .or
  | add => .add
  | subtract => .subtract
  | multiply => .multiply
  | divide => .divide

/-- What a comparison with null asks. -/
def BinaryOp.nullOperator : BinaryOp → Operator
  | eq => .is
  | ne => .isNot
  | _ => .lt

namespace Phrase

def numeral (n : Nat) : Phrase := .literal (.ofInt n)

def text (s : String) : Phrase := .literal (.text s)

/-- A null stands on the right, whichever side it was on. -/
def ofBinary (op : BinaryOp) (a b : Phrase) (nullOnLeft nullOnRight : Bool) : Phrase :=
  if nullOnLeft then .paren (.binary op.nullOperator b a)
  else if nullOnRight then .paren (.binary op.nullOperator a b)
  else .paren (.binary op.operator a b)

def likePattern (receiver left right : Phrase) : Phrase :=
  .paren (.like receiver (.paren (.binary .concat left right)))

/-- A part of the receiver is compared with a text of a known length. -/
def slice (receiver start : Phrase) (length : Nat) (arg : Phrase) : Phrase :=
  .paren (.binary .eq (.call "substr" [receiver, start, numeral length]) arg)

/-- Where the last characters of the receiver start. -/
def suffixStart (receiver : Phrase) (length : Nat) : Phrase :=
  .binary .add (.binary .subtract (.call "length" [receiver]) (numeral length)) (numeral 1)

/-- The phrase of a call. `listed` is the number of elements if the receiver is a list. -/
def ofCall (m : Method) (listed : Option Nat) (ignoresCase : Bool) (length : Nat) :
    Option Phrase → List Phrase → Phrase
  | receiver, args =>
    match m, receiver, args with
    | .like, _, [a, b] => .paren (.like a b)
    | .contains, some r, [a] =>
      match listed with
      | some n => .paren (.among a (List.replicate n .hole))
      | none => .paren (.binary .gt (.call "instr" [r, a]) (numeral 0))
    | .startsWith, some r, a :: _ =>
      if ignoresCase then likePattern r a (text "%") else slice r (numeral 1) length a
    | .endsWith, some r, a :: _ =>
      if ignoresCase then likePattern r (text "%") a else slice r (suffixStart r length) length a
    | .equals, some r, [a] => .paren (.binary .eq r (.paren a))
    | .toLower, some r, [] => .paren (.call "lower" [r])
    | .toUpper, some r, [] => .paren (.call "upper" [r])
    | .replace, some r, [a, b] => .paren (.call "replace" [r, a, b])
    | .isNullOrEmpty, _, [a] =>
      .paren (.binary .or (.binary .is a (.literal .null)) (.binary .eq a (text "")))
    | m, receiver, args => .call (Text.toLower m.name) (receiver.toList ++ args)

end Phrase

namespace Expr

/-- The number of elements of a list. -/
def listed? : Expr → Option Nat
  | collection vs => some vs.length
  | _ => none

variable (t : Mapping)

mutual

/-- The phrase of a predicate. A list or a conditional has none. -/
def phrase : Expr → Phrase
  | column name => .name (((t.resolve name).toOption.map Column.name).getD name)
  | constant _ | collection _ | conditional _ _ _ => .hole
  | binary op a b => .ofBinary op (phrase a) (phrase b) a.isNullParameter b.isNullParameter
  | not e => .not (.paren (phrase e))
  | convert e _ => phrase e
  | call m r as =>
    .ofCall m (r.bind listed?) (modeIgnoresCase as) (carriedLength as) (receiverPhrase r)
      (phrases as)

def receiverPhrase : Option Expr → Option Phrase
  | none => none
  | some e => some (phrase e)

def phrases : List Expr → List Phrase
  | [] => []
  | e :: es => phrase e :: phrases es

end

end Expr

end RowLedger
