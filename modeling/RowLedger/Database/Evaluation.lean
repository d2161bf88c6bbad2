import RowLedger.Database.Function
import RowLedger.Database.Table

/-!
The value of a term on a row. Names are first resolved to cells of a table, which refuses what has
no meaning before any row is read.
-/

namespace RowLedger

namespace ColumnName

def written (c : ColumnName) : String :=
  match c.table with
  | some t => t ++ "." ++ c.name
  | none => c.name

/-- What a name means that is no column: a text if it was in double quotes, or a truth value. -/
def constant? (c : ColumnName) : Option Datum :=
  if c.table.isSome then none
  else if c.maybeText then some (.text c.name)
  else if Text.sameName c.name "true" then some (.ofBool true)
  else if Text.sameName c.name "false" then some (.ofBool false)
  else none

end ColumnName

/-- The functions of a name, and those that take a number of arguments. -/
def Function.named (s : String) : List (String × List Nat × Function) :=
  Function.all.filter fun e => Text.sameName e.1 s

def Function.find? (s : String) (count : Nat) : Option Function :=
  ((Function.named s).find? fun e => e.2.1.contains count).map (·.2.2)

namespace Term

/-- Refuses a call that names no function or has the wrong number of arguments. -/
def checkCall (gathers : Bool) (f : String) (count : Nat) : Except Fault Unit :=
  if (Function.find? f count).isSome then .ok ()
  else if (Aggregate.ofName? f).isSome then
    if count ≠ 1 then .error (.argumentCount f)
    else if gathers then .ok () else .error (.misusedAggregate f)
  else if (Function.named f).isEmpty then .error (.noFunction f)
  else .error (.argumentCount f)

mutual

/-- Aggregates are refused unless the term may gather rows, and inside of one another. -/
def resolve (source : Option Table) (gathers : Bool) : NamedTerm → Except Fault (Term CellRef)
  | literal d => .ok (literal d)
  | parameter n => .ok (parameter n)
  | column c =>
    match source.bind (·.cellRef? c), c.constant? with
    | some s, _ => .ok (column s)
    | none, some d => .ok (literal d)
    | none, none => .error (.noColumn c.written)
  | negate t => negate <$> resolve source gathers t
  | complement t => complement <$> resolve source gathers t
  | not t => not <$> resolve source gathers t
  | binary op a b => do return binary op (← resolve source gathers a) (← resolve source gathers b)
  | among t list => do return among (← resolve source gathers t) (← resolveAll source gathers list)
  | like t p => do return like (← resolve source gathers t) (← resolve source gathers p)
  | call f args => do
    let inner := gathers && (Function.find? f args.length).isSome
    let args ← resolveAll source inner args
    checkCall gathers f args.length
    return call f args
  | countRows => if gathers then .ok countRows else .error (.misusedAggregate "count")
  | collate t c => do
    let t ← resolve source gathers t
    if (Collation.ofName? c).isSome then return collate t c else throw (.noCollation c)

def resolveAll (source : Option Table) (gathers : Bool) :
    List NamedTerm → Except Fault (List (Term CellRef))
  | [] => .ok []
  | t :: ts => do return (← resolve source gathers t) :: (← resolveAll source gathers ts)

end

/-- The affinity of a column. -/
def affinity? : Term CellRef → Option Affinity
  | column s => some s.affinity
  | collate t _ => affinity? t
  | _ => none

def explicitCollation? : Term CellRef → Option Collation
  | collate _ c => Collation.ofName? c
  | _ => none

def collation? : Term CellRef → Option Collation
  | column s => some s.collation
  | collate _ c => Collation.ofName? c
  | _ => none

/-- Of two columns a numeric one decides; what is said explicitly goes before what columns say. -/
def comparing (a b : Term CellRef) : Datum.Comparing where
  affinity :=
    match a.affinity?, b.affinity? with
    | some x, some y => some (if x.isNumeric || y.isNumeric then .numeric else .blob)
    | x, y => x.or y
  collation :=
    (a.explicitCollation?.or (b.explicitCollation?.or (a.collation?.or b.collation?))).getD .binary

/-- The collation of the first argument that has one. -/
def callCollation (args : List (Term CellRef)) : Collation :=
  (args.findSome? collation?).getD .binary

def cell (r : Option StoredRow) (s : CellRef) : Datum :=
  match r, s.place with
  | some r, some i => (r.cells[i]?).getD .null
  | some r, none => .integer r.id
  | none, _ => .null

mutual

/-- The parameters that are missing are null. -/
def eval (ps : List Datum) (r : Option StoredRow) : Term CellRef → Except Fault Datum
  | literal d => .ok d
  | parameter n => .ok ((ps[n - 1]?).getD .null)
  | column s => .ok (cell r s)
  | negate t => Datum.negate <$> eval ps r t
  | complement t => Datum.complement <$> eval ps r t
  | not t => (fun d => .ofTruth (d.truth?.map (!·))) <$> eval ps r t
  | binary op a b => do
    let x ← eval ps r a
    if op = .and ∧ x.truth? = some false then return .ofBool false
    else if op = .or ∧ x.truth? = some true then return .ofBool true
    else return op.apply (comparing a b) x (← eval ps r b)
  | among t list => do
    let c : Datum.Comparing := ⟨t.affinity?, t.collation?.getD .binary⟩
    return .ofTruth (Datum.member c (← eval ps r t) (← evalAll ps r list))
  | like t p => do return Datum.like (← eval ps r t) (← eval ps r p)
  | call f args => do
    let ds ← evalAll ps r args
    match Function.find? f ds.length with
    | some g => g.apply (callCollation args) ds
    | none => return .null
  | countRows => .ok .null
  | collate t _ => eval ps r t

def evalAll (ps : List Datum) (r : Option StoredRow) :
    List (Term CellRef) → Except Fault (List Datum)
  | [] => .ok []
  | t :: ts => do return (← eval ps r t) :: (← evalAll ps r ts)

end

mutual

/-- Does the term gather rows? -/
def gathers : Term CellRef → Bool
  | literal _ | parameter _ | column _ => false
  | negate t | complement t | not t | collate t _ => gathers t
  | binary _ a b | like a b => gathers a || gathers b
  | among t list => gathers t || anyGathers list
  | call f args => (Function.find? f args.length).isNone || anyGathers args
  | countRows => true

def anyGathers : List (Term CellRef) → Bool
  | [] => false
  | t :: ts => gathers t || anyGathers ts

end

mutual

/-- Puts what is gathered from the rows in the place of each aggregate. -/
def gathered (ps : List Datum) (rows : List StoredRow) : Term CellRef → Except Fault (Term CellRef)
  | literal d => .ok (literal d)
  | parameter n => .ok (parameter n)
  | column s => .ok (column s)
  | negate t => negate <$> gathered ps rows t
  | complement t => complement <$> gathered ps rows t
  | not t => not <$> gathered ps rows t
  | binary op a b => do return binary op (← gathered ps rows a) (← gathered ps rows b)
  | among t list => do return among (← gathered ps rows t) (← allGathered ps rows list)
  | like t p => do return like (← gathered ps rows t) (← gathered ps rows p)
  | call f args =>
    match Function.find? f args.length, Aggregate.ofName? f, args with
    | none, some a, [arg] => do
      let ds ← rows.mapM fun r => eval ps (some r) arg
      return literal (← a.apply ((collation? arg).getD .binary) ds)
    | _, _, args => do return call f (← allGathered ps rows args)
  | countRows => .ok (literal (.ofInt rows.length))
  | collate t c => (collate · c) <$> gathered ps rows t

def allGathered (ps : List Datum) (rows : List StoredRow) :
    List (Term CellRef) → Except Fault (List (Term CellRef))
  | [] => .ok []
  | t :: ts => do return (← gathered ps rows t) :: (← allGathered ps rows ts)

end

end Term

end RowLedger
