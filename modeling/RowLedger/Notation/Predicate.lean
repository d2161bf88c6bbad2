import RowLedger.Notation.Value
import RowLedger.Predicate.Expr

/-! Predicates in JSON: as trees, or as the steps that build them. -/

namespace RowLedger

open Json

namespace BinaryOp

/-- The short name of an operator. -/
def code : BinaryOp → String
  | eq => "Eq"
  | ne => "Ne"
  | lt => "Lt"
  | le => "Le"
  | gt => "Gt"
  | ge => "Ge"
  | bitAnd => "BitAnd"
  | bitOr => "BitOr"
  | and => "And"
  | or => "Or"
  | add => "Add"
  | subtract => "Subtract"
  | multiply => "Multiply"
  | divide => "Divide"

def ofCode? (s : String) : Option BinaryOp := all.find? fun op => op.code == s

end BinaryOp

namespace Comparison

def ofJson? (j : Json) : Option Comparison := j.asInt?.bind ofCode?

end Comparison

namespace Expr

def unarySteps : List (String × (Expr → Expr)) :=
  [("not", not), ("to_lower", toLower), ("to_upper", toUpper),
    ("is_null_or_empty", isNullOrEmpty)]

def binarySteps : List (String × (Expr → Expr → Expr)) :=
  [ ("eq", eq), ("ne", ne), ("lt", lt), ("le", le), ("gt", gt), ("ge", ge), ("and", and),
    ("or", or), ("bit_and", bitAnd), ("bit_or", bitOr), ("add", add), ("sub", sub), ("mul", mul),
    ("div", div), ("like", like), ("contains", contains), ("starts_with", startsWith),
    ("ends_with", endsWith), ("equals", equals) ]

/-- One step of building, by its name, on an expression and with arguments; what else it needs
stands in the object. -/
def step? (name : String) (j : Json) (e : Expr) (args : List Expr) : Option Expr := do
  match name, args with
  | "replace", [a, b] => return e.replace a b
  | "conditional", [a, b] => return conditional e a b
  | "is_in", _ => return e.isIn (← (j.items "values").mapM Value.ofJson?)
  | "starts_with_cmp", [a] => return e.startsWithMode a (← Comparison.ofJson? (j.member "cmp"))
  | "ends_with_cmp", [a] => return e.endsWithMode a (← Comparison.ofJson? (j.member "cmp"))
  | "call", args => return e.method (← j.text? "method") args
  | "convert", _ => return convert e (← Kind.ofJson? (j.member "to"))
  | "compare_string", [a] => return e.compareString a (j.flag "text")
  | name, [] => return (← unarySteps.lookup name) e
  | name, [a] => return (← binarySteps.lookup name) e a
  | _, _ => none

/-- The first key decides what the object stands for. The first argument bounds the depth. -/
def read? : Nat → Json → Option Expr
  | 0, _ => none
  | depth + 1, j => do
    let part (key : String) : Option Expr := read? depth (j.member key)
    let parts (key : String) : Option (List Expr) := (j.items key).mapM (read? depth)
    if j.has "col" then return column (← j.text? "col")
    else if j.has "list" then return collection (← (j.items "list").mapM Value.ofJson?)
    else if j.has "bin" then
      return binary (← BinaryOp.ofCode? (← j.text? "bin")) (← part "l") (← part "r")
    else if j.has "not" then return not (← part "not")
    else if j.has "convert" then
      return convert (← part "convert") (← Kind.ofJson? (j.member "to"))
    else if j.has "call" then
      let receiver ← unlessNull (read? depth) (j.member "on")
      return call (.ofName (← j.text? "call")) receiver (← parts "args")
    else if j.has "if" then
      match ← parts "if" with
      | [t, a, b] => return conditional t a b
      | _ => none
    else if j.has "fn" then step? (← j.text? "fn") j (← part "on") (← parts "args")
    else
      match j with
      | .object [(key, v)] =>
        if key = "lit" || key = "const" then return constant (← Value.ofJson? v) else none
      | _ => none

def ofJson? (j : Json) : Option Expr := read? j.depth j

mutual

def toJson : Expr → Json
  | column s => .record [("col", text s)]
  | constant v => .record [("const", v.toJson)]
  | collection vs => .record [("list", list Value.toJson vs)]
  | binary op a b => .record [("bin", text op.code), ("l", toJson a), ("r", toJson b)]
  | not e => .record [("not", toJson e)]
  | call m r args =>
    .record [("call", text m.name), ("on", receiverToJson r), ("args", .array (argsToJson args))]
  | convert e k => .record [("convert", toJson e), ("to", text k.name)]
  | conditional t a b => .record [("if", .array [toJson t, toJson a, toJson b])]

def receiverToJson : Option Expr → Json
  | none => .null
  | some e => toJson e

def argsToJson : List Expr → List Json
  | [] => []
  | e :: es => toJson e :: argsToJson es

end

end Expr

end RowLedger
