import RowLedger.Connection.Events

/-!
Inserting one row. The record gets its identifiers first, then the row is stored, then the record
takes the key that the database counted up. Nothing is entered in the ledger here.
-/

namespace RowLedger

namespace InsertCommand

/-- Only a replacement names the columns that count up. -/
def derive (d : Dialect) (m : Mapping) (mode : InsertMode) : InsertCommand :=
  let columns := match mode with
    | .replace => m.replaceColumns
    | .insert | .ignore => m.insertColumns
  ⟨d.insert m columns mode, columns⟩

end InsertCommand

namespace Mapping

/-- The parameter that binds a value to a column. -/
def param (m : Mapping) (i : Nat) (v : Value) : Except Error Param := do
  return ⟨((m.column? i).map Column.name).getD "", ← v.toSql⟩

/-- Has the record no key yet where the mapping draws one? -/
def lacksGuidKey (m : Mapping) (e : Entity) (i : Nat) : Bool :=
  ((m.column? i).map Column.autoGuid).getD false &&
    match m.get e i with
    | .guid g => g == .nil
    | .null => true
    | _ => false

/-- The record with the key that the database has counted up, if it reported one. -/
def withGeneratedKey (m : Mapping) (e : Entity) (id : Option (Sized .i64)) :
    Except Error Entity :=
  match m.autoKeyColumn?, m.key, id with
  | some c, some i, some n => do m.set e i (← Value.ofSql c.kind (.bigInt n))
  | _, _, _ => .ok e

end Mapping

namespace Act

variable {σ : Type}

/-- A fresh identifier for the row; an entry of the ledger brings that of the row it is about. -/
def identify (m : Mapping) (e : Entity) : Act σ (Entity × Guid) := do
  if isLedger m then
    match (m.get e m.sync).guid? with
    | some g => return (e, g)
    | none => return (e, ← drawGuid)
  else
    let g ← drawGuid
    return (← ofExcept (m.set e m.sync (.guid g)), g)

def fillKey (m : Mapping) (e : Entity) : Act σ Entity := do
  match m.key with
  | none => return e
  | some i =>
    if m.lacksGuidKey e i then ofExcept (m.set e i (.guid (← drawGuid))) else return e

def prepare (m : Mapping) (e : Entity) : Act σ (Entity × Guid) := do
  let (e, g) ← identify m e
  return (← fillKey m e, g)

/-- The command is derived once for a mapping, a mode and a dialect. -/
def insertCommand (t : RecordType) (m : Mapping) (mode : InsertMode) : Act σ InsertCommand := do
  let key : CommandKey := ⟨t, m.flags, mode, ← dialect⟩
  let c ← state
  let (i, commands) ← ofExcept (c.commands.serve key (.ok (.derive key.dialect m mode)))
  update fun c => { c with commands }
  return i.value

/-- Stores a prepared record; the identifying column takes the identifier also where no field is
behind it. -/
def store (m : Mapping) (e : Entity) (guid : Guid) (mode : InsertMode) : Act σ ExecResult := do
  let c ← insertCommand e.type m mode
  let params ← ofExcept (c.columns.mapM fun i =>
    m.param i (if i = m.sync then .guid guid else m.get e i))
  exec c.sql params

/-- Inserts a row. Returns the record as far as it got, and the identifier and count of the rows. -/
def insertRow (m : Mapping) (e : Entity) (mode : InsertMode) :
    Act σ (Entity × Except Error (Guid × Nat)) := do
  match ← attempt (prepare m e) with
  | .error err => return (e, .error err)
  | .ok (e, guid) =>
    match ← attempt (store m e guid mode) with
    | .error err => return (e, .error err)
    | .ok r =>
      if r.rowsAffected = 0 then return (e, .ok (guid, 0))
      else match m.withGeneratedKey e r.lastId with
        | .error err => return (e, .error err)
        | .ok e => return (e, .ok (guid, r.rowsAffected))

end Act

end RowLedger
