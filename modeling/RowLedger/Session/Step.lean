import RowLedger.Connection.Mutation
import RowLedger.Session.Log

/-! Steps of a session: operations on named records, savepoints and subscriptions. -/

namespace RowLedger.Session

variable {σ α : Type}

abbrev Play (σ α : Type) := Act (Session σ) α

def get : Play σ (Session σ) := do return (← Act.state).world

def modify (f : Session σ → Session σ) : Play σ Unit :=
  Act.update fun c => { c with world := f c.world }

/-- What a step did. -/
structure Report (α : Type) where
  result : Except Error α
  log : List LogEntry
  depth : Nat

def Report.inTransaction (r : Report α) : Bool := 0 < r.depth

/-- Takes a step with a log of its own. The state behind the session is changed on entering, and
partly changed back on leaving. -/
def step (enter : σ → σ) (leave : σ → σ → σ) (x : Play σ α) : Play σ (Report α) := do
  let outer ← get
  modify fun s => { s with log := [], inner := enter s.inner }
  let result ← Act.attempt x
  let log := (← get).log
  modify fun s => { s with log := outer.log, inner := leave outer.inner s.inner }
  return ⟨result, log, (← Act.state).depth⟩

/-- A step with what is kept of it, and whether a failure of it is let pass. -/
structure Nested (σ β : Type) where
  step : Play σ (Except Error Unit × β)
  keepsGoing : Bool

/-- Takes steps up to the first failure that is not let pass. -/
def nested {β : Type} : List (Nested σ β) → Play σ (List β × Except Error Unit)
  | [] => return ([], .ok ())
  | n :: rest => do
    let (r, b) ← n.step
    match r with
    | .error e =>
      if n.keepsGoing then
        let (bs, r) ← nested rest
        return (b :: bs, r)
      else return ([b], .error e)
    | .ok () =>
      let (bs, r) ← nested rest
      return (b :: bs, r)

/-- Takes steps in a transaction, which can be made to fail at its end. -/
def transaction {β : Type} (steps : List (Nested σ β)) (failure : Option String) :
    Play σ (List β × Except Error Unit) :=
  Act.keepingInTransaction [] do
    let (bs, r) ← nested steps
    match r, failure with
    | .ok (), some message => return (bs, .error (.invalidOperation (.other message)))
    | r, _ => return (bs, r)

/-! Named records. -/

def unknown (name : String) : Error := .invalidOperation (.other ("nothing is named " ++ name))

def orUnknown (name : String) : Option α → Play σ α
  | some a => pure a
  | none => Act.fail (unknown name)

def assign {β : Type} (name : String) (b : β) (entries : List (String × β)) :
    List (String × β) :=
  (name, b) :: entries.filter fun e => e.1 != name

def record? (name : String) : Play σ (Option Entity) := do return (← get).records.lookup name

def record (name : String) : Play σ Entity := do orUnknown name (← record? name)

def keep (name : String) (e : Entity) : Play σ Unit :=
  modify fun s => { s with records := assign name e s.records }

/-- Writes fields in the order of their names, up to the first failure. -/
def write (e : Entity) : List (String × Value) → Entity × Except Error Unit
  | [] => (e, .ok ())
  | (name, v) :: rest =>
    match Entity.position? e.type name with
    | none => (e, .error (unknown name))
    | some i =>
      match e.set i v with
      | .ok e => write e rest
      | .error err => (e, .error err)

def inOrder (fields : List (String × Value)) : List (String × Value) :=
  fields.mergeSort fun a b => a.1 ≤ b.1

def writeInto (name : String) (e : Entity) (fields : List (String × Value)) : Play σ Unit := do
  let (e, r) := write e (inOrder fields)
  keep name e
  Act.ofExcept r

def create (t : RecordType) (name : String) (fields : List (String × Value)) : Play σ Entity := do
  writeInto name (Entity.fresh t) fields
  record name

def setFields (name : String) (fields : List (String × Value)) : Play σ Unit := do
  writeInto name (← record name) fields

/-- Applies an operation to a named record and keeps the record as the operation leaves it. -/
def onRecord (name : String) (f : Entity → Play σ Act.Written) : Play σ Nat := do
  let (e, r) ← f (← record name)
  keep name e
  Act.ofExcept r

def onRecords (names : List String)
    (f : List Entity → Play σ (List Entity × Except Error Nat)) : Play σ Nat := do
  let (es, r) ← f (← names.mapM record)
  (names.zip es).forM fun (name, e) => keep name e
  Act.ofExcept r

/-! Named savepoints and labelled subscriptions. -/

def saveAs (slot : String) : Play σ String := do
  let name ← Act.save
  modify fun s => { s with savepoints := assign slot name s.savepoints }
  return name

def savepoint (slot : String) : Play σ String := do
  orUnknown slot ((← get).savepoints.lookup slot)

/-- Events go into the log of the session. -/
def subscribeAs (label : String) : Play σ Nat := do
  let id ← Act.subscribe fun change s => s.add (.event label change.table.table change.action)
  modify fun s => { s with subscriptions := assign label id s.subscriptions }
  return id

def unsubscribeFrom (label : String) : Play σ Bool := do
  Act.unsubscribe (← orUnknown label ((← get).subscriptions.lookup label))

/-! Iteration. -/

/-- The records of a query one after the other, at most as many as the limit, each with what an
action between them yields. What is left is dropped. -/
def pull {β : Type} (between : Play σ β) :
    Nat → Act.Records → Play σ (List (Except Error Entity × β))
  | 0, rs => do
    Act.dropRecords rs
    return []
  | limit + 1, rs => do
    let (next, rs) ← Act.nextOf rs
    match next with
    | none => return []
    | some r =>
      let b ← between
      return (r, b) :: (← pull between limit rs)

end RowLedger.Session
