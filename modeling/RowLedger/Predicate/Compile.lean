import RowLedger.Dialect
import RowLedger.Predicate.Expr

/-! Predicates as conditions of SQL: the text in pieces, and the parameters it is bound with. -/

namespace RowLedger

structure Condition where
  sql : Sql
  params : List Param
  deriving DecidableEq

namespace Compile

/-- How often each base name was drawn. -/
abbrev Drawn := List (String × Nat)

/-- The letters, digits and underscores of a text, which become the name of its parameter. -/
def baseName (hint : String) : String :=
  let cs := hint.toList.filter fun c => c.isAlphanum || c = '_'
  if cs.isEmpty then "p" else String.ofList cs

def timesDrawn (drawn : Drawn) (base : String) : Nat := (drawn.lookup base).getD 0

/-- The base itself at first, later with a count. -/
def numbered (base : String) (times : Nat) : String :=
  if times = 0 then base else base ++ Text.showInt times

def drawName (hint : String) (drawn : Drawn) : String × Drawn :=
  let base := baseName hint
  let times := timesDrawn drawn base
  (numbered base times, (base, times + 1) :: drawn.filter fun e => e.1 != base)

/-- A compiled node. A constant carries its value, also through conversions and negation. -/
structure Fragment where
  sql : Sql
  params : List Param
  value : Option Value := none
  isParam : Bool := false
  deriving DecidableEq

def Fragment.isNullParam (f : Fragment) : Bool := f.isParam && f.value == some .null

abbrev Naming := StateT Drawn (Except Error)

def draw (hint : String) : Naming String := fun drawn => .ok (drawName hint drawn)

def constant (v : Value) (hint : String) : Naming Fragment := do
  let name ← draw hint
  let stored ← v.toSql
  return { sql := [.hole name], params := [⟨name, stored⟩], value := some v, isParam := true }

def elements (hint : String) : List Value → Naming (List Param)
  | [] => return []
  | v :: vs => do
    let name ← draw hint
    let stored ← v.toSql
    return ⟨name, stored⟩ :: (← elements hint vs)

def collection (vs : List Value) (hint : String) : Naming Fragment := do
  let params ← elements hint vs
  return {
    sql := Sql.parenthesized (Sql.joined "," (params.map fun p => [.hole p.name]))
    params }

/-- The side that is not null stands first, whichever side it was on. -/
def nullComparison (d : Dialect) (op : BinaryOp) (operand null : Fragment) :
    Except Error Fragment := do
  let keyword ←
    if op = .eq then pure "is"
    else if op = .ne then pure "is not"
    else if op.isOrdering then pure "<"
    else throw (.unsupportedNullComparison op.name)
  if d.bindsNullComparisons then
    return {
      sql := .word "(" :: operand.sql ++ .word (" " ++ keyword ++ " ") :: null.sql ++ [.word ")"]
      params := operand.params ++ null.params }
  else
    return {
      sql := .word "(" :: operand.sql ++ [.word (" " ++ keyword ++ " null)")]
      params := operand.params }

def comparison (d : Dialect) (op : BinaryOp) (a b : Fragment) : Except Error Fragment :=
  if a.isNullParam then nullComparison d op b a
  else if b.isNullParam then nullComparison d op a b
  else
    match op.token? with
    | none => .error (.unsupportedOperator op.name)
    | some token => .ok {
        sql := .word "(" :: a.sql ++ .word (" " ++ token ++ " ") :: b.sql ++ [.word ")"]
        params := a.params ++ b.params }

def negation (f : Fragment) : Fragment :=
  { sql := .word "NOT(" :: f.sql ++ [.word ")"]
    params := f.params
    value := match f.value with
      | some (.bool b) => some (.bool !b)
      | v => v }

/-- A carried value is converted, and so is the parameter if the fragment is one. -/
def conversion (f : Fragment) (k : Kind) : Except Error Fragment :=
  match f.value with
  | none => .ok f
  | some v => do
    let v ← v.convert k
    if f.isParam then
      let stored ← v.toSql
      let rebound := match f.params.getLast? with
        | some p => f.params.dropLast ++ [{ p with value := stored }]
        | none => []
      return { f with params := rebound, value := some v }
    else return { f with value := some v }

/-- The comparison mode that a prefix or suffix test with two arguments names in the second. -/
def modeOf? (m : Method) (args : List Expr) : Except Error (Option Comparison) :=
  if m = .startsWith ∨ m = .endsWith then
    match args with
    | [_, .constant v] =>
      match (v.int?).bind fun n => Comparison.ofCode? n.val with
      | some c => .ok (some c)
      | none => .error (.unsupportedCall m.name .badMode)
    | [_, _] => .error (.unsupportedCall m.name .modeNotConstant)
    | _ => .ok none
  else .ok none

/-- The number of characters of the text that a fragment carries. -/
def carriedLength (m : Method) (f : Fragment) : Except Error Nat :=
  match f.value with
  | some (.text s) => .ok s.length
  | _ => .error (.unsupportedCall m.name .lengthUnknown)

/-- The parameters of a fragment whose text stands twice. -/
def repeated (d : Dialect) (ps : List Param) : List Param := if d.bindsByPosition then ps else []

def number (n : Nat) : Sql := [.word (Text.showInt n)]

/-- An exact test compares a part of the receiver with the argument. -/
def slice (part arg : Sql) : Sql := .word "( " :: part ++ .word " =  " :: arg ++ [.word ")"]

def likePattern (receiver pattern : Sql) : Sql :=
  .word "(" :: receiver ++ .word " like (" :: pattern ++ [.word "))"]

def membership (item list : Sql) : Sql := .word "(" :: item ++ .word " in " :: list ++ [.word ")"]

def anyString : Sql := [.word "'%'"]

/-- All other methods become functions of the same name in small letters. -/
def plainCall (m : Method) (receiver : Option Fragment) (args : List Fragment) : Fragment :=
  let parts := receiver.toList ++ args
  { sql := .word (Text.toLower m.name ++ "(") ::
      Sql.joined "," (parts.map Fragment.sql) ++ [.word ")"]
    params := parts.flatMap Fragment.params }

/-- The SQL of a call, its receiver and arguments being compiled. -/
def applied (d : Dialect) (m : Method) (mode : Option Comparison) (overList : Bool)
    (receiver : Option Fragment) (args : List Fragment) : Except Error Fragment :=
  let params := receiver.toList.flatMap Fragment.params ++ args.flatMap Fragment.params
  let on : Except Error Fragment :=
    match receiver with
    | some r => .ok r
    | none => .error (.unsupportedCall m.name .noReceiver)
  let ignoresCase := (mode.getD .currentCulture).ignoresCase
  match m, args with
  | .like, [a, b] =>
    .ok { sql := .word "(" :: a.sql ++ .word " like " :: b.sql ++ [.word ")"], params }
  | .contains, [list, item] => .ok { sql := membership item.sql list.sql, params }
  | .contains, [arg] => do
    let r ← on
    if overList then
      return { sql := membership arg.sql r.sql, params := arg.params ++ r.params }
    else
      return { sql := .word "( " :: d.position r.sql arg.sql ++ [.word " >0 )"], params }
  | .startsWith, [arg] => do
    let r ← on
    if ignoresCase then
      return { sql := likePattern r.sql (d.concat arg.sql anyString), params }
    else
      let n ← carriedLength m arg
      return { sql := slice (d.substr r.sql (number 1) (number n)) arg.sql, params }
  | .endsWith, [arg] => do
    let r ← on
    if ignoresCase then
      return { sql := likePattern r.sql (d.concat anyString arg.sql), params }
    else
      let n ← carriedLength m arg
      let start := d.length r.sql ++ [.word (" - " ++ Text.showInt n ++ "+1")]
      return {
        sql := slice (d.substr r.sql start (number n)) arg.sql
        params := r.params ++ repeated d r.params ++ arg.params }
  | .equals, [arg] => do
    let r ← on
    return { sql := .word "(" :: r.sql ++ .word " = (" :: arg.sql ++ [.word "))"], params }
  | .toLower, [] => do
    let r ← on
    return { sql := .word "(lower(" :: r.sql ++ [.word "))"], params }
  | .toUpper, [] => do
    let r ← on
    return { sql := .word "(upper(" :: r.sql ++ [.word "))"], params }
  | .replace, [source, target] => do
    let r ← on
    return {
      sql := .word "(replace(" :: r.sql ++ .word "," :: source.sql ++ .word "," :: target.sql ++
        [.word "))"]
      params }
  | .isNullOrEmpty, [arg] =>
    .ok {
      sql := .word "(" :: arg.sql ++ .word " is null or " :: arg.sql ++ [.word " = '')"]
      params := params ++ repeated d arg.params }
  | m, args => .ok (plainCall m receiver args)

variable (t : Mapping) (d : Dialect)

mutual

/-- The hint names the parameters of the constants below, unless a sibling on the left does. -/
def fragment (hint : String) : Expr → Naming Fragment
  | .column name => do
    let c ← t.resolve name
    return { sql := [.name c.name], params := [] }
  | .constant v => constant v hint
  | .collection vs => collection vs hint
  | .binary op a b => do
    let a ← fragment hint a
    let b ← fragment (d.render a.sql) b
    comparison d op a b
  | .not e => do return negation (← fragment hint e)
  | .convert e k => do conversion (← fragment hint e) k
  | .conditional _ _ _ => throw (.unsupportedExpression "Conditional")
  | .call m r as => do
    let receiver ← receiverFragment hint r
    let argHint := match receiver with
      | some f => d.render f.sql
      | none => hint
    let mode ← modeOf? m as
    let args ← argFragments argHint (if mode.isSome then 1 else as.length) as
    applied d m mode ((r.map Expr.isCollection).getD false) receiver args

def receiverFragment (hint : String) : Option Expr → Naming (Option Fragment)
  | none => return none
  | some e => do return some (← fragment hint e)

/-- The first `count` arguments. -/
def argFragments (hint : String) : Nat → List Expr → Naming (List Fragment)
  | 0, _ | _, [] => return []
  | count + 1, e :: es => do
    let f ← fragment hint e
    return f :: (← argFragments hint count es)

end

end Compile

/-- A predicate as a condition on the rows of a table. -/
def compile (e : Expr) (t : Mapping) (d : Dialect) : Except Error Condition := do
  let (f, _) ← (Compile.fragment t d "" e.opened).run []
  return ⟨f.sql, f.params⟩

end RowLedger
