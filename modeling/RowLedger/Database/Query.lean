import RowLedger.Database.Access

/-!
Queries: terms evaluated on the rows of a table, which a condition selects and an order sorts.
-/

namespace RowLedger

/-- What a statement yields: rows, and perhaps a fault after them. -/
structure Yield where
  rows : List (List Datum) := []
  fault : Option Fault := none
  deriving DecidableEq

def Yield.ofFault (e : Fault) : Yield := { fault := some e }

/-- A selection whose names are resolved. -/
structure Query where
  columns : List ResultColumn
  table : Option Table
  results : List (Term CellRef)
  condition : Option (Term CellRef)
  /-- Each term with whether it descends. -/
  order : List (Term CellRef × Bool)
  limit : Option (Term CellRef)
  offset : Option (Term CellRef)

namespace Query

/-- A column is shown by its own name and type; any other term as it was written. -/
def resultColumn (t : Term CellRef) (heading : Option String) (written : String) : ResultColumn :=
  match t with
  | .column s => ⟨heading.getD s.name, .ofDeclared s.type⟩
  | _ => ⟨heading.getD written, .null⟩

def resolveResult (source : Option Table) :
    ResultTerm → Except Fault (List (ResultColumn × Term CellRef))
  | .all =>
    match source with
    | none => .error .noTables
    | some t => .ok (t.cellRefs.map fun s => (resultColumn (.column s) none s.name, .column s))
  | .one t heading written => do
    let t ← t.resolve source true
    return [(resultColumn t heading written, t)]

/-- A term of the order may also be the heading of a result or its number. -/
def resolveOrder (source : Option Table) (results : List ResultTerm)
    (resolved : List (Term CellRef)) (o : OrderTerm) : Except Fault (Term CellRef × Bool) := do
  let headed (s : String) : Option NamedTerm := results.findSome? fun
    | .one t (some heading) _ => if Text.sameName heading s then some t else none
    | _ => none
  match o.term with
  | .literal (.integer n) =>
    match (if 0 < n.val then resolved[n.val.toNat - 1]? else none) with
    | some t => return (t, o.descending)
    | none => return (.literal .null, o.descending)
  | .column { table := none, name, maybeText } =>
    let t := (headed name).getD (.column { name, maybeText })
    return (← t.resolve source true, o.descending)
  | t => return (← t.resolve source true, o.descending)

def resolveOne (source : Option Table) (t : Option NamedTerm) :
    Except Fault (Option (Term CellRef)) :=
  t.mapM (Term.resolve source false)

def ofSelection (d : Database) (s : Selection) : Except Fault Query := do
  let table ← s.source.mapM fun n => match d.find? n with
    | some t => .ok t
    | none => .error (.noTable n)
  let results ← s.results.mapM (resolveResult table)
  let (columns, results) := results.flatten.unzip
  let condition ← resolveOne table s.condition
  let order ← s.order.mapM (resolveOrder table s.results results)
  let limit ← resolveOne none s.limit
  let offset ← resolveOne none s.offset
  return { columns, table, results, condition, order, limit, offset }

variable (ps : List Datum)

/-- Does the condition hold? What is null does not hold. -/
def holds (condition : Option (Term CellRef)) (r : Option StoredRow) : Except Fault Bool :=
  match condition with
  | none => .ok true
  | some t => do return (← t.eval ps r).truth? == some true

def places (q : Query) : List Nat :=
  q.results.flatMap Term.places ++ (q.condition.map Term.places).getD [] ++
    q.order.flatMap fun o => o.1.places

/-- The rows that a query visits; without a table a single one that holds nothing. -/
def visited (q : Query) : List (Option StoredRow) :=
  match q.table with
  | none => [none]
  | some t => (t.visited q.condition q.places).map some

/-- A number of rows, or none where it is negative or nothing is said. -/
def count? (t : Option (Term CellRef)) : Except Fault (Option Nat) :=
  match t with
  | none => .ok none
  | some t => do
    match Affinity.numeric.store (← t.eval ps none) with
    | .integer n => return if n.val < 0 then none else some n.val.toNat
    | _ => throw .mismatch

/-- Leaves rows away at the front and stops at a number of rows. -/
def windowed {α : Type} (limit offset : Option Nat) (xs : List α) : List α :=
  let xs := xs.drop (offset.getD 0)
  (limit.map xs.take).getD xs

/-- Evaluates row after row up to the first fault. -/
def collect : List (Except Fault (List Datum)) → Yield
  | [] => {}
  | .error e :: _ => .ofFault e
  | .ok r :: rest =>
    let y := collect rest
    { y with rows := r :: y.rows }

/-- The rows for which the condition holds, each fault in its place. -/
def selected (q : Query) : List (Except Fault (Option StoredRow)) :=
  q.visited.filterMap fun r => match holds ps q.condition r with
    | .ok true => some (.ok r)
    | .ok false => none
    | .error e => some (.error e)

def project (q : Query) (r : Option StoredRow) : Except Fault (List Datum) :=
  q.results.mapM (Term.eval ps r)

/-- How two lists of keys stand, each with its collation and its direction. -/
def compareKeys : List (Collation × Bool) → List Datum → List Datum → Ordering
  | (c, descending) :: os, a :: as, b :: bs =>
    let o := a.order c b
    (if descending then o.swap else o).then (compareKeys os as bs)
  | _, _, _ => .eq

/-- Rows with equal keys keep their order. -/
def sorted (q : Query) : Except Fault (List (List Datum)) := do
  let rules := q.order.map fun (t, descending) => ((t.collation?).getD .binary, descending)
  let keyed ← (selected ps q).mapM fun r => do
    let r ← r
    let keys ← q.order.mapM fun o => o.1.eval ps r
    return (keys, ← q.project ps r)
  return (keyed.mergeSort fun a b => compareKeys rules a.1 b.1 != .gt).map (·.2)

/-- The single row of a query that gathers. -/
def summary (q : Query) : Except Fault (List Datum) := do
  let rows ← (selected ps q).mapM id
  let rows := rows.filterMap id
  q.results.mapM fun t => do
    let t ← t.gathered ps rows
    t.eval ps rows.getLast?

def run (q : Query) : Yield :=
  match count? ps q.limit, count? ps q.offset with
  | .error e, _ | _, .error e => .ofFault e
  | .ok limit, .ok offset =>
    if Term.anyGathers q.results then
      collect (windowed limit offset [q.summary ps])
    else if q.order.isEmpty then
      collect (windowed limit offset ((selected ps q).map fun r => r.bind (q.project ps)))
    else match sorted ps q with
      | .error e => .ofFault e
      | .ok rows => { rows := windowed limit offset rows }

end Query

end RowLedger
