import RowLedger.Value

/-! Predicates over the columns of a table, as trees, and the functions that build them. -/

namespace RowLedger

inductive BinaryOp
  | eq | ne | lt | le | gt | ge | bitAnd | bitOr | and | or | add | subtract | multiply | divide
  deriving DecidableEq, Repr

namespace BinaryOp

def all : List BinaryOp :=
  [eq, ne, lt, le, gt, ge, bitAnd, bitOr, and, or, add, subtract, multiply, divide]

/-- The token between the operands; arithmetic has none. -/
def token? : BinaryOp → Option String
  | eq => some "="
  | ne => some "!="
  | lt => some "<"
  | le => some "<="
  | gt => some ">"
  | ge => some ">="
  | bitAnd => some "&"
  | bitOr => some "|"
  | and => some "and"
  | or => some "or"
  | add | subtract | multiply | divide => none

def isOrdering : BinaryOp → Bool
  | lt | le | gt | ge => true
  | _ => false

/-- The name that messages use. -/
def name : BinaryOp → String
  | eq => "Equal"
  | ne => "NotEqual"
  | lt => "LessThan"
  | le => "LessThanOrEqual"
  | gt => "GreaterThan"
  | ge => "GreaterThanOrEqual"
  | bitAnd => "And"
  | bitOr => "Or"
  | and => "AndAlso"
  | or => "OrElse"
  | add => "Add"
  | subtract => "Subtract"
  | multiply => "Multiply"
  | divide => "Divide"

end BinaryOp

/-- The methods with a form of their own in SQL, and all others. -/
inductive Method
  | like | contains | startsWith | endsWith | equals | toLower | toUpper | replace
  | isNullOrEmpty | compareString
  | other (name : String)
  deriving DecidableEq

namespace Method

def known : List (String × Method) :=
  [ ("Like", like), ("Contains", contains), ("StartsWith", startsWith), ("EndsWith", endsWith),
    ("Equals", equals), ("ToLower", toLower), ("ToUpper", toUpper), ("Replace", replace),
    ("IsNullOrEmpty", isNullOrEmpty), ("CompareString", compareString) ]

def ofName (s : String) : Method := ((known.find? fun m => m.1 == s).map (·.2)).getD (other s)

def name : Method → String
  | like => "Like"
  | contains => "Contains"
  | startsWith => "StartsWith"
  | endsWith => "EndsWith"
  | equals => "Equals"
  | toLower => "ToLower"
  | toUpper => "ToUpper"
  | replace => "Replace"
  | isNullOrEmpty => "IsNullOrEmpty"
  | compareString => "CompareString"
  | other s => s

end Method

inductive Expr
  /-- A column, by the name of its field or its own. -/
  | column (name : String)
  | constant (v : Value)
  /-- A literal list. -/
  | collection (vs : List Value)
  | binary (op : BinaryOp) (left right : Expr)
  | not (e : Expr)
  | call (method : Method) (receiver : Option Expr) (args : List Expr)
  | convert (e : Expr) (target : Kind)
  | conditional (test ifTrue ifFalse : Expr)

namespace Expr

/-- The name of the node that messages use. -/
def nodeName : Expr → String
  | column _ => "MemberAccess"
  | constant _ | collection _ => "Constant"
  | binary _ _ _ => "Binary"
  | not _ => "Not"
  | call _ _ _ => "Call"
  | convert _ _ => "Convert"
  | conditional _ _ _ => "Conditional"

def isCollection : Expr → Bool
  | collection _ => true
  | _ => false

/-! The builder. -/

def eq (a b : Expr) : Expr := binary .eq a b
def ne (a b : Expr) : Expr := binary .ne a b
def lt (a b : Expr) : Expr := binary .lt a b
def le (a b : Expr) : Expr := binary .le a b
def gt (a b : Expr) : Expr := binary .gt a b
def ge (a b : Expr) : Expr := binary .ge a b
def and (a b : Expr) : Expr := binary .and a b
def or (a b : Expr) : Expr := binary .or a b
def bitAnd (a b : Expr) : Expr := binary .bitAnd a b
def bitOr (a b : Expr) : Expr := binary .bitOr a b
def add (a b : Expr) : Expr := binary .add a b
def sub (a b : Expr) : Expr := binary .subtract a b
def mul (a b : Expr) : Expr := binary .multiply a b
def div (a b : Expr) : Expr := binary .divide a b

/-- Any method by its name. -/
def method (e : Expr) (name : String) (args : List Expr) : Expr :=
  call (.ofName name) (some e) args

def like (e pattern : Expr) : Expr := call .like none [e, pattern]
def contains (e needle : Expr) : Expr := call .contains (some e) [needle]
def isIn (e : Expr) (vs : List Value) : Expr := call .contains (some (collection vs)) [e]
def startsWith (e start : Expr) : Expr := call .startsWith (some e) [start]
def endsWith (e ending : Expr) : Expr := call .endsWith (some e) [ending]
def equals (e other : Expr) : Expr := call .equals (some e) [other]
def toLower (e : Expr) : Expr := call .toLower (some e) []
def toUpper (e : Expr) : Expr := call .toUpper (some e) []
def replace (e source target : Expr) : Expr := call .replace (some e) [source, target]
def isNullOrEmpty (e : Expr) : Expr := call .isNullOrEmpty none [e]

/-- A comparison mode travels as its code. -/
def mode (c : Comparison) : Expr := constant (.int (Sized.clamp .i32 c.code))

def startsWithMode (e start : Expr) (c : Comparison) : Expr :=
  call .startsWith (some e) [start, mode c]

def endsWithMode (e ending : Expr) (c : Comparison) : Expr :=
  call .endsWith (some e) [ending, mode c]

/-- The three-way comparison of two strings; a comparison of it compares the strings. -/
def compareString (a b : Expr) (asText : Bool) : Expr :=
  call .compareString none [a, b, constant (.bool asText)]

/-- The operands of a comparison once three-way comparisons on the left are opened. -/
def operands : Expr → Expr → Expr × Expr
  | call .compareString none [a, b, _], _ => operands a b
  | a, b => (a, b)

mutual

/-- Opens every three-way comparison that stands on the left of an operator. -/
def opened : Expr → Expr
  | column name => column name
  | constant v => constant v
  | collection vs => collection vs
  | binary op a b =>
    let (a, b) := operands (opened a) (opened b)
    binary op a b
  | not e => not (opened e)
  | call m r as => call m (openedReceiver r) (openedArgs as)
  | convert e k => convert (opened e) k
  | conditional t a b => conditional (opened t) (opened a) (opened b)

def openedReceiver : Option Expr → Option Expr
  | none => none
  | some e => some (opened e)

def openedArgs : List Expr → List Expr
  | [] => []
  | e :: es => opened e :: openedArgs es

end

end Expr

end RowLedger
