import RowLedger.Proofs.Predicate.Built
import RowLedger.Proofs.Predicate.Carried

/-!
The text of a predicate with its constants in place, as SQLite writes it: where the statement has
the mark of a parameter, the layout has the constant that the mark stands for.
-/

namespace RowLedger

/-- A piece of a layout. -/
inductive Spot
  | word (s : String)
  | name (s : String)
  | constant (v : Value)

abbrev Layout := List Spot

namespace Spot

/-- A constant shows as the mark of its parameter. -/
def text : Spot → String
  | word s => s
  | name s => Dialect.sqlite.quote s
  | constant _ => Dialect.sqlite.placeholder ""

def constant? : Spot → Option Value
  | constant v => some v
  | _ => none

end Spot

namespace Layout

def text (l : Layout) : String := String.join (l.map Spot.text)

/-- The constants from left to right. -/
def constants (l : Layout) : List Value := l.filterMap Spot.constant?

@[simp] theorem constants_nil : constants [] = [] := rfl

@[simp] theorem constants_word (s : String) (l : Layout) :
    constants (.word s :: l) = constants l := rfl

@[simp] theorem constants_name (s : String) (l : Layout) :
    constants (.name s :: l) = constants l := rfl

@[simp] theorem constants_constant (v : Value) (l : Layout) :
    constants (.constant v :: l) = v :: constants l := rfl

@[simp] theorem constants_append (a b : Layout) :
    constants (a ++ b) = constants a ++ constants b := List.filterMap_append

def joined (between : String) : List Layout → Layout
  | [] => []
  | [l] => l
  | l :: m :: rest => l ++ .word between :: joined between (m :: rest)

/-- An operand, a word and another operand between parentheses. -/
def infixed (a : Layout) (w : String) (b : Layout) : Layout :=
  .word "(" :: a ++ .word w :: b ++ [.word ")"]

/-- A pattern made of two texts is matched with the receiver. -/
def likeLayout (receiver left right : Layout) : Layout :=
  .word "(" :: receiver ++ .word " like (" :: (left ++ .word " || " :: right) ++ [.word "))"]

/-- A part of the receiver is compared with a text of a known length. -/
def sliceLayout (receiver start : Layout) (length : Nat) (arg : Layout) : Layout :=
  .word "( " :: (.word "substr(" :: receiver ++ .word ", " :: start ++
    .word ", " :: [.word (Text.showInt length)] ++ [.word ")"]) ++ .word " =  " :: arg ++
    [.word ")"]

/-- Where the last characters of the receiver start. -/
def suffixStart (receiver : Layout) (length : Nat) : Layout :=
  .word "length(" :: receiver ++ [.word ")"] ++ [.word (" - " ++ Text.showInt length ++ "+1")]

/-- The layout of a call. Of a prefix or suffix test it depends on whether case is ignored, and else
on the length of the text that is looked for. -/
def ofCall (m : Method) (overList ignoresCase : Bool) (length : Nat) :
    Option Layout → List Layout → Layout
  | receiver, args =>
    match m, receiver, args with
    | .like, _, [a, b] => infixed a " like " b
    | .contains, some r, [a] =>
      if overList then infixed a " in " r
      else .word "( " :: (.word "instr(" :: r ++ .word "," :: a ++ [.word ")"]) ++ [.word " >0 )"]
    | .startsWith, some r, a :: _ =>
      if ignoresCase then likeLayout r a [.word "'%'"]
      else sliceLayout r [.word (Text.showInt 1)] length a
    | .endsWith, some r, a :: _ =>
      if ignoresCase then likeLayout r [.word "'%'"] a
      else sliceLayout r (suffixStart r length) length a
    | .equals, some r, [a] => .word "(" :: r ++ .word " = (" :: a ++ [.word "))"]
    | .toLower, some r, [] => .word "(lower(" :: r ++ [.word "))"]
    | .toUpper, some r, [] => .word "(upper(" :: r ++ [.word "))"]
    | .replace, some r, [a, b] =>
      .word "(replace(" :: r ++ .word "," :: a ++ .word "," :: b ++ [.word "))"]
    | .isNullOrEmpty, _, [a] =>
      .word "(" :: a ++ .word " is null or " :: a ++ [.word " = '')"]
    | m, receiver, args =>
      .word (Text.toLower m.name ++ "(") :: joined "," (receiver.toList ++ args) ++ [.word ")"]

/-- A null stands on the right, whichever side it was on. -/
def ofBinary (op : BinaryOp) (a b : Layout) (nullOnLeft nullOnRight : Bool) : Layout :=
  let keyword := (op.nullKeyword?).getD ""
  if nullOnLeft then infixed b (" " ++ keyword ++ " ") a
  else if nullOnRight then infixed a (" " ++ keyword ++ " ") b
  else infixed a (" " ++ op.token?.getD "" ++ " ") b

end Layout

namespace Expr

/-- Does the comparison mode among the arguments ignore case? -/
def modeIgnoresCase : List Expr → Bool
  | [_, constant v] =>
    ((v.int?.bind fun n => Comparison.ofCode? n.val).map Comparison.ignoresCase).getD false
  | _ => false

/-- The length of the text that the first argument carries. -/
def carriedLength : List Expr → Nat
  | e :: _ => ((e.carried?.bind Value.text?).map String.length).getD 0
  | [] => 0

variable (t : Mapping)

mutual

def layout : Expr → Layout
  | column name => [.name (((t.resolve name).toOption.map Column.name).getD name)]
  | constant v => [.constant v]
  | collection vs =>
    .word "(" :: Layout.joined "," (vs.map fun v => [.constant v]) ++ [.word ")"]
  | binary op a b => .ofBinary op (layout a) (layout b) a.isNullParameter b.isNullParameter
  | not e => .word "NOT(" :: layout e ++ [.word ")"]
  | convert e k =>
    if e.isParameter then [.constant ((convert e k).carried?.getD .null)] else layout e
  | call m r as =>
    .ofCall m ((r.map isCollection).getD false) (modeIgnoresCase as) (carriedLength as)
      (receiverLayout r) (layouts as)
  | conditional _ _ _ => []

def receiverLayout : Option Expr → Option Layout
  | none => none
  | some e => some (layout e)

def layouts : List Expr → List Layout
  | [] => []
  | e :: es => layout e :: layouts es

end

theorem layout_of_isParameter {e : Expr} (h : e.isParameter = true) :
    e.layout t = [.constant (e.carried?.getD .null)] := by
  cases e with
  | constant v => rfl
  | convert e k => exact if_pos h
  | _ => cases h

/-! The layouts of the calls that the builder makes. -/

variable (e a b : Expr)

theorem layout_contains (he : e.isCollection = false) :
    (e.contains a).layout t =
      .word "( " :: (.word "instr(" :: e.layout t ++ .word "," :: a.layout t ++ [.word ")"]) ++
        [.word " >0 )"] := by
  change Layout.ofCall .contains e.isCollection _ _ (some (e.layout t)) [a.layout t] = _
  rw [he]
  rfl

theorem modeIgnoresCase_mode (c : Comparison) :
    modeIgnoresCase [a, mode c] = c.ignoresCase := by
  cases c <;> rfl

theorem layout_startsWith :
    (e.startsWith a).layout t =
      .sliceLayout (e.layout t) [.word (Text.showInt 1)] (carriedLength [a]) (a.layout t) := rfl

theorem layout_startsWithMode (c : Comparison) :
    (e.startsWithMode a c).layout t =
      if c.ignoresCase then .likeLayout (e.layout t) (a.layout t) [.word "'%'"]
      else (e.startsWith a).layout t := by
  change (if modeIgnoresCase [a, mode c] then _ else _) = _
  rw [modeIgnoresCase_mode]
  rfl

theorem layout_endsWith :
    (e.endsWith a).layout t =
      .sliceLayout (e.layout t) (.suffixStart (e.layout t) (carriedLength [a])) (carriedLength [a])
        (a.layout t) := rfl

theorem layout_endsWithMode (c : Comparison) :
    (e.endsWithMode a c).layout t =
      if c.ignoresCase then .likeLayout (e.layout t) [.word "'%'"] (a.layout t)
      else (e.endsWith a).layout t := by
  change (if modeIgnoresCase [a, mode c] then _ else _) = _
  rw [modeIgnoresCase_mode]
  rfl

theorem layout_equals :
    (e.equals a).layout t =
      .word "(" :: e.layout t ++ .word " = (" :: a.layout t ++ [.word "))"] := rfl

theorem layout_toLower :
    e.toLower.layout t = .word "(lower(" :: e.layout t ++ [.word "))"] := rfl

theorem layout_toUpper :
    e.toUpper.layout t = .word "(upper(" :: e.layout t ++ [.word "))"] := rfl

theorem layout_replace :
    (e.replace a b).layout t =
      .word "(replace(" :: e.layout t ++ .word "," :: a.layout t ++ .word "," :: b.layout t ++
        [.word "))"] := rfl

theorem layout_isNullOrEmpty :
    e.isNullOrEmpty.layout t =
      .word "(" :: e.layout t ++ .word " is null or " :: e.layout t ++ [.word " = '')"] := rfl

theorem layouts_eq_map (as : List Expr) : layouts t as = as.map (layout t) := by
  induction as with
  | nil => rfl
  | cons a as ih => rw [layouts, ih, List.map_cons]

theorem layout_method (name : String) (as : List Expr) :
    (call (.other name) (some e) as).layout t =
      .word (Text.toLower name ++ "(") ::
        Layout.joined "," (e.layout t :: as.map (layout t)) ++ [.word ")"] := by
  rw [← layouts_eq_map]
  rfl

theorem layout_compareString (asText : Bool) :
    (compareString a b asText).layout t =
      .word (Text.toLower Method.compareString.name ++ "(") ::
        Layout.joined "," [a.layout t, b.layout t, [.constant (.bool asText)]] ++ [.word ")"] := rfl

end Expr

end RowLedger
