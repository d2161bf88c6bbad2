import RowLedger.Database.Fault
import RowLedger.Database.Statement
import RowLedger.Database.Token

/-!
Reading statements from lexemes. Reading goes from left to right and never back, so that a refusal
names the first lexeme with which no statement can go on.
-/

namespace RowLedger

namespace Grammar

structure State where
  rest : List Lexeme
  /-- Does a semicolon follow the last lexeme? -/
  terminated : Bool
  /-- The number of parameters without a number so far. -/
  asked : Nat := 0

abbrev Reader := StateT State (Except Fault)

def unexpected {α : Type} : Reader α := fun s =>
  match s.rest with
  | [] => .error (if s.terminated then .near ";" else .incomplete)
  | l :: _ =>
    let written := String.ofList l.written
    .error (if l.token = .illegal then .unrecognized written else .near written)

/-- The next lexeme, if `f` makes something of it. -/
def take? {α : Type} (f : Lexeme → Option α) : Reader (Option α) := fun s =>
  match s.rest with
  | [] => .ok (none, s)
  | l :: rest =>
    match f l with
    | some a => .ok (some a, { s with rest })
    | none => .ok (none, s)

def take {α : Type} (f : Lexeme → Option α) : Reader α := do
  match ← take? f with
  | some a => return a
  | none => unexpected

def isWord (w : String) (l : Lexeme) : Bool :=
  match l.token with
  | .word s => Text.sameName s w
  | _ => false

def isSymbol (w : String) (l : Lexeme) : Bool := l.token == .symbol w

def found (p : Lexeme → Bool) : Reader Bool :=
  Option.isSome <$> take? fun l => if p l then some () else none

def word? (w : String) : Reader Bool := found (isWord w)

def word (w : String) : Reader Unit := take fun l => if isWord w l then some () else none

/-- Several words, or the first is not there. -/
def words? (w : String) (more : List String) : Reader Bool := do
  if ← word? w then
    more.forM word
    return true
  else return false

def symbol? (w : String) : Reader Bool := found (isSymbol w)

def symbol (w : String) : Reader Unit := take fun l => if isSymbol w l then some () else none

/-- The words that are no names unless they are quoted. -/
def reserved : List String :=
  [ "add", "all", "alter", "and", "as", "autoincrement", "between", "case", "check", "collate",
    "commit", "constraint", "create", "default", "deferrable", "delete", "distinct", "drop", "else",
    "escape", "except", "exists", "foreign", "from", "group", "having", "in", "index", "insert",
    "intersect", "into", "is", "isnull", "join", "limit", "not", "nothing", "notnull", "null", "on",
    "or", "order", "primary", "references", "returning", "select", "set", "table", "then", "to",
    "transaction", "union", "unique", "update", "using", "values", "when", "where" ]

def identifier (l : Lexeme) : Option String :=
  match l.token with
  | .word s => if reserved.any (Text.sameName s) then none else some s
  | .name s _ => some s
  | _ => none

/-- A name may also stand between single quotes. -/
def anyName (l : Lexeme) : Option String :=
  match l.token with
  | .text s => some s
  | _ => identifier l

def name : Reader String := take anyName

/-- The name of a table or an index, after that of its database. -/
def qualifiedName : Reader String := do
  let n ← name
  if ← symbol? "." then name else return n

def listed {α : Type} (item : Reader α) : Nat → Reader (List α)
  | 0 => return []
  | fuel + 1 => do
    let a ← item
    if ← symbol? "," then return a :: (← listed item fuel)
    else return [a]

/-- One or more items with commas between them. -/
def list {α : Type} (item : Reader α) : Reader (List α) := do
  listed item (((← get).rest).length + 1)

def parenthesized {α : Type} (x : Reader α) : Reader α := do
  symbol "("
  let a ← x
  symbol ")"
  return a

def names : Reader (List String) := parenthesized (list name)

/-- What a reader makes, and how it was written. -/
def written {α : Type} (x : Reader α) : Reader (α × String) := do
  let before := (← get).rest
  let a ← x
  let after := (← get).rest
  return (a, Lexeme.span (before.take (before.length - after.length)))

/-! Terms. -/

def symbolOperators : List (String × Nat × Operator) :=
  [ ("=", 4, .eq), ("==", 4, .eq), ("!=", 4, .ne), ("<>", 4, .ne), ("<", 5, .lt), ("<=", 5, .le),
    (">", 5, .gt), (">=", 5, .ge), ("&", 6, .bitAnd), ("|", 6, .bitOr), ("<<", 6, .shiftLeft),
    (">>", 6, .shiftRight), ("+", 7, .add), ("-", 7, .subtract), ("*", 8, .multiply),
    ("/", 8, .divide), ("%", 8, .remainder), ("||", 9, .concat) ]

/-- What can follow a term, with the strength by which it binds. -/
inductive Suffix
  | operator (op : Operator)
  | is | not | among | like | between | isNull | notNull | collate

def wordSuffixes : List (String × Nat × Suffix) :=
  [ ("or", 1, .operator .or), ("and", 2, .operator .and), ("is", 4, .is), ("not", 4, .not),
    ("in", 4, .among), ("like", 4, .like), ("between", 4, .between), ("isnull", 4, .isNull),
    ("notnull", 4, .notNull), ("collate", 10, .collate) ]

def suffix (l : Lexeme) : Option (Nat × Suffix) :=
  match l.token with
  | .symbol s => (symbolOperators.lookup s).map fun (n, op) => (n, .operator op)
  | .word s => (wordSuffixes.find? fun e => Text.sameName e.1 s).map (·.2)
  | _ => none

def suffixFrom (least : Nat) (l : Lexeme) : Option (Nat × Suffix) :=
  (suffix l).filter fun e => least ≤ e.1

def parameter (number : Option Nat) : Reader NamedTerm := do
  match number with
  | some n => return .parameter n
  | none =>
    modify fun s => { s with asked := s.asked + 1 }
    return .parameter (← get).asked

def literal (l : Lexeme) : Option Datum :=
  match l.token with
  | .text s => some (.text s)
  | .blob b => some (.blob b)
  | .number d => some d
  | .word s => if Text.sameName s "null" then some .null else none
  | _ => none

/-- A numeral after a minus sign is read together with it. -/
def negativeNumber (l : Lexeme) : Option Datum :=
  match l.token with
  | .number _ => (Datum.scanNumber ('-' :: l.written)).map (·.1)
  | _ => none

def hole (l : Lexeme) : Option (Option Nat) :=
  match l.token with
  | .parameter n => some n
  | _ => none

/-- A name, and whether it may be a text. -/
def columnWord (l : Lexeme) : Option (String × Bool) :=
  match l.token with
  | .name s maybeText => some (s, maybeText)
  | _ => (identifier l).map (·, false)

mutual

/-- A term whose operators bind at least that strongly. -/
def termFrom (least : Nat) : Nat → Reader NamedTerm
  | 0 => unexpected
  | fuel + 1 => do suffixed least (← operand fuel) fuel

def operand : Nat → Reader NamedTerm
  | 0 => unexpected
  | fuel + 1 => do
    if ← symbol? "-" then
      match ← take? negativeNumber with
      | some d => return .literal d
      | none => return .negate (← operand fuel)
    else if ← symbol? "+" then operand fuel
    else if ← symbol? "~" then return .complement (← operand fuel)
    else if ← word? "not" then return .not (← termFrom 4 fuel)
    else if ← symbol? "(" then
      let t ← termFrom 1 fuel
      symbol ")"
      return t
    else match ← take? literal with
      | some d => return .literal d
      | none =>
        match ← take? hole with
        | some n => parameter n
        | none =>
          let (s, maybeText) ← take columnWord
          if ← symbol? "(" then call s fuel
          else if ← symbol? "." then return .column { table := some s, name := ← name }
          else return .column { name := s, maybeText }

/-- The arguments of a call after the opening parenthesis. -/
def call (function : String) : Nat → Reader NamedTerm
  | 0 => unexpected
  | fuel + 1 => do
    if ← symbol? "*" then
      symbol ")"
      return if Text.sameName function "count" then .countRows else .call function []
    else return .call function (← closedList fuel)

/-- Terms up to the closing parenthesis, perhaps none. -/
def closedList : Nat → Reader (List NamedTerm)
  | 0 => unexpected
  | fuel + 1 => do
    if ← symbol? ")" then return []
    else moreTerms fuel

def moreTerms : Nat → Reader (List NamedTerm)
  | 0 => unexpected
  | fuel + 1 => do
    let t ← termFrom 1 fuel
    if ← symbol? "," then return t :: (← moreTerms fuel)
    else
      symbol ")"
      return [t]

/-- Takes what follows a term as long as it binds strongly enough. -/
def suffixed (least : Nat) (t : NamedTerm) : Nat → Reader NamedTerm
  | 0 => return t
  | fuel + 1 => do
    match ← take? (suffixFrom least) with
    | none => return t
    | some (strength, s) => suffixed least (← withSuffix t strength s fuel) fuel

def withSuffix (t : NamedTerm) (strength : Nat) (s : Suffix) : Nat → Reader NamedTerm
  | 0 => unexpected
  | fuel + 1 => do
    match s with
    | .operator op => return .binary op t (← termFrom (strength + 1) fuel)
    | .is =>
      let op := if ← word? "not" then Operator.isNot else .is
      return .binary op t (← termFrom 5 fuel)
    | .isNull => return .binary .is t (.literal .null)
    | .notNull => return .binary .isNot t (.literal .null)
    | .collate => return .collate t (← name)
    | .among =>
      symbol "("
      return .among t (← closedList fuel)
    | .like => return .like t (← termFrom 5 fuel)
    | .between =>
      let low ← termFrom 5 fuel
      word "and"
      let high ← termFrom 5 fuel
      return .binary .and (.binary .ge t low) (.binary .le t high)
    | .not =>
      if ← word? "null" then return .binary .isNot t (.literal .null)
      else if ← word? "in" then return .not (← withSuffix t strength .among fuel)
      else if ← word? "like" then return .not (← withSuffix t strength .like fuel)
      else
        word "between"
        return .not (← withSuffix t strength .between fuel)

end

/-- Each step but a few of every lexeme takes a lexeme away. -/
def term : Reader NamedTerm := do
  termFrom 1 (4 * ((← get).rest.length + 1))

/-! Definitions. -/

/-- A type is a run of names, with one or two numbers in parentheses. -/
def typeNames : Nat → Reader Unit
  | 0 => return
  | fuel + 1 => do
    if (← take? anyName).isSome then typeNames fuel

def signedNumber : Reader Unit := do
  if !(← symbol? "-") then let _ ← symbol? "+"
  take fun l => match l.token with
    | .number _ => some ()
    | _ => none

/-- The types whose names are kept in capitals. -/
def standardTypes : List String := ["ANY", "BLOB", "INT", "INTEGER", "REAL", "TEXT"]

def type : Reader String := do
  let (_, s) ← written do
    let before := (← get).rest.length
    typeNames before
    if (← get).rest.length < before then
      if ← symbol? "(" then
        signedNumber
        if ← symbol? "," then signedNumber
        symbol ")"
  return (standardTypes.find? (Text.sameName s)).getD s

def descending : Reader Bool := do
  if ← word? "desc" then return true
  else
    let _ ← word? "asc"
    return false

/-- What a column holds by itself: a literal, or a term in parentheses. -/
def fallback : Reader NamedTerm := do
  if ← symbol? "(" then
    let t ← term
    symbol ")"
    return t
  else if ← symbol? "-" then return .literal (← take negativeNumber)
  else
    let _ ← symbol? "+"
    match ← take? literal with
    | some d => return .literal d
    | none => return .literal (.text (← take identifier))

def columnRules (c : ColumnDefinition) : Nat → Reader ColumnDefinition
  | 0 => return c
  | fuel + 1 => do
    if ← words? "primary" ["key"] then
      let descending ← descending
      let autoincrement ← word? "autoincrement"
      columnRules { c with key := some ⟨descending, autoincrement⟩ } fuel
    else if ← words? "not" ["null"] then columnRules { c with notNull := true } fuel
    else if ← word? "null" then columnRules c fuel
    else if ← word? "unique" then columnRules { c with isUnique := true } fuel
    else if ← word? "collate" then
      let collation ← name
      columnRules { c with collation := some collation } fuel
    else if ← word? "default" then
      let f ← written fallback
      columnRules { c with fallback := some f } fuel
    else if ← word? "constraint" then
      let _ ← name
      columnRules c fuel
    else return c

def columnDefinition : Reader ColumnDefinition := do
  let name ← name
  let type ← type
  columnRules { name, type } (← get).rest.length

inductive TablePart
  | column (c : ColumnDefinition)
  | rule (r : TableRule)

def tablePart : Reader TablePart := do
  if ← word? "constraint" then let _ ← name
  if ← words? "primary" ["key"] then
    symbol "("
    let columns ← list name
    let autoincrement ← word? "autoincrement"
    symbol ")"
    return .rule (.primaryKey columns autoincrement)
  else if ← word? "unique" then return .rule (.unique (← names))
  else return .column (← columnDefinition)

def ifNotExists : Reader Bool := words? "if" ["not", "exists"]

def ifExists : Reader Bool := words? "if" ["exists"]

def createTable : Reader Statement := do
  let ifAbsent ← ifNotExists
  let name ← qualifiedName
  let parts ← parenthesized (list tablePart)
  let columns := parts.filterMap fun
    | .column c => some c
    | .rule _ => none
  let rules := parts.filterMap fun
    | .column _ => none
    | .rule r => some r
  return .createTable ifAbsent name columns rules

def indexedColumn : Reader ColumnName := do
  let (name, maybeText) ← take columnWord
  if ← word? "collate" then let _ ← Grammar.name
  let _ ← descending
  return { name, maybeText }

def createIndex (isUnique : Bool) : Reader Statement := do
  let ifAbsent ← ifNotExists
  let name ← qualifiedName
  word "on"
  let table ← Grammar.name
  let columns ← parenthesized (list indexedColumn)
  return .createIndex isUnique ifAbsent name table columns

def create : Reader Statement := do
  if ← word? "unique" then
    word "index"
    createIndex true
  else if ← word? "index" then createIndex false
  else
    if !(← word? "temp") then let _ ← word? "temporary"
    word "table"
    createTable

def drop : Reader Statement := do
  if ← word? "index" then
    let ifPresent ← ifExists
    return .dropIndex ifPresent (← qualifiedName)
  else
    word "table"
    let ifPresent ← ifExists
    return .dropTable ifPresent (← qualifiedName)

def alter : Reader Statement := do
  word "table"
  let table ← qualifiedName
  word "add"
  let _ ← word? "column"
  return .addColumn table (← columnDefinition)

/-! Rows. -/

def condition : Reader (Option NamedTerm) := do
  if ← word? "where" then some <$> term else return none

def conflict : Reader Conflict := do
  if ← word? "or" then
    if ← word? "replace" then return .replace
    else if ← word? "ignore" then return .ignore
    else
      word "abort"
      return .abort
  else return .abort

def insertInto (onConflict : Conflict) : Reader Statement := do
  word "into"
  let table ← qualifiedName
  let columns ← if ← symbol? "(" then
      let cs ← list name
      symbol ")"
      pure (some cs)
    else pure none
  if ← word? "default" then
    word "values"
    return .insert onConflict table columns .defaults
  else
    word "values"
    return .insert onConflict table columns (.values (← list (parenthesized (list term))))

def change : Reader (String × NamedTerm) := do
  let n ← name
  symbol "="
  return (n, ← term)

def update : Reader Statement := do
  let table ← qualifiedName
  word "set"
  let changes ← list change
  return .update table changes (← condition)

def resultTerm : Reader ResultTerm := do
  if ← symbol? "*" then return .all
  else
    let (t, s) ← written term
    if ← word? "as" then return .one t (some (← name)) s
    else return .one t (← take? anyName) s

def orderTerm : Reader OrderTerm := do
  let t ← term
  return ⟨t, ← descending⟩

def window : Reader (Option NamedTerm × Option NamedTerm) := do
  if ← word? "limit" then
    let first ← term
    if ← word? "offset" then return (some first, some (← term))
    else if ← symbol? "," then return (some (← term), some first)
    else return (some first, none)
  else return (none, none)

def selection : Reader Selection := do
  if !(← word? "distinct") then let _ ← word? "all"
  let results ← list resultTerm
  let source ← if ← word? "from" then some <$> qualifiedName else pure none
  let condition ← condition
  let order ← if ← words? "order" ["by"] then list orderTerm else pure []
  let (limit, offset) ← window
  return { results, source, condition, order, limit, offset }

/-! Transactions and settings. -/

def optionalWords (ws : List String) : Reader Unit :=
  ws.forM fun w => do let _ ← word? w

def pragma : Reader Statement := do
  let n ← qualifiedName
  let argument ← if ← symbol? "(" then
      let a ← take fun l => some (anyName l)
      symbol ")"
      pure a
    else if ← symbol? "=" then
      let _ ← symbol? "-"
      take fun l => some (anyName l)
    else pure none
  match argument with
  | some table => if Text.sameName n "table_info" then return .tableInfo table else return .setting
  | none => return .setting

def rollback : Reader Statement := do
  optionalWords ["transaction"]
  if ← word? "to" then
    optionalWords ["savepoint"]
    return .rollbackTo (← name)
  else return .rollback

def begin : Reader Statement := do
  optionalWords ["deferred", "immediate", "exclusive", "transaction"]
  return .begin

def commit : Reader Statement := do
  optionalWords ["transaction"]
  return .commit

def readers : List (String × Reader Statement) :=
  [ ("select", .select <$> selection),
    ("insert", do insertInto (← conflict)),
    ("replace", insertInto .replace),
    ("update", update),
    ("delete", do
      word "from"
      let table ← qualifiedName
      return .delete table (← condition)),
    ("create", create),
    ("drop", drop),
    ("alter", alter),
    ("pragma", pragma),
    ("begin", begin),
    ("commit", commit),
    ("end", commit),
    ("rollback", rollback),
    ("savepoint", .savepoint <$> name),
    ("release", do
      optionalWords ["savepoint"]
      return .release (← name)) ]

def firstWord (l : Lexeme) : Option (Reader Statement) :=
  (readers.find? fun e => isWord e.1 l).map (·.2)

def statement : Reader Statement := do
  let s ← (← take firstWord)
  if (← get).rest.isEmpty then return s else unexpected

end Grammar

/-- The lexemes between semicolons, and whether one follows. -/
def Lexeme.statements (ls : List Lexeme) : List (List Lexeme × Bool) :=
  let step (l : Lexeme) : List (List Lexeme × Bool) → List (List Lexeme × Bool)
    | [] => if l.token = .symbol ";" then [([], true), ([], false)] else [([l], false)]
    | (first, closed) :: rest =>
      if l.token = .symbol ";" then ([], true) :: (first, closed) :: rest
      else (l :: first, closed) :: rest
  (ls.foldr step []).filter fun p => !p.1.isEmpty

/-- The statements of a text, and the first refusal. Parameters are counted throughout. -/
def Statement.readAll (asked : Nat) : List (List Lexeme × Bool) → List (Except Fault Statement)
  | [] => []
  | (rest, terminated) :: more =>
    match Grammar.statement.run { rest, terminated, asked } with
    | .ok (s, state) => .ok s :: readAll state.asked more
    | .error e => [.error e]

def Statement.ofText (s : String) : List (Except Fault Statement) :=
  readAll 0 (Lexeme.statements (Lexeme.ofText s))

end RowLedger
