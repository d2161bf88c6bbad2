import RowLedger.Database.Evaluation

/-! Definitions: tables and indexes made, changed and dropped. -/

namespace RowLedger

namespace Table

/-- The name of the next index that a rule of the table needs. -/
def ruleIndexName (t : Table) : String :=
  "sqlite_autoindex_" ++ t.name ++ "_" ++ Text.showInt (t.indexes.length + 1)

/-- Makes some columns unique, unless they are already. -/
def makeUnique (t : Table) (places : List Nat) : Table :=
  let parts := places.map some
  if t.indexes.any fun i => i.isUnique && i.parts == parts then t
  else { t with indexes := ⟨t.ruleIndexName, parts, true⟩ :: t.indexes }

def hasKey (t : Table) : Bool := t.columns.any fun c => c.keyRank != 0

/-- Makes columns the primary key. A single column of whole numbers is the id of the row. -/
def makeKey (t : Table) (places : List Nat) (mark : KeyMark) : Except Fault Table := do
  let ranked := t.columns.zipIdx.map fun (c, i) =>
    match places.findIdx? (· == i) with
    | some k => { c with keyRank := k + 1 }
    | none => c
  let t' := { t with columns := ranked }
  match places with
  | [i] =>
    let isWhole := ((t.columns[i]?).map fun c => Text.sameName c.type "INTEGER").getD false
    if isWhole && !mark.descending then
      return { t' with idColumn := some i, autoincrement := mark.autoincrement }
    else if mark.autoincrement then throw .autoincrementElsewhere
    else return t'.makeUnique places
  | _ => if mark.autoincrement then throw .autoincrementElsewhere else return t'.makeUnique places

/-- A column as its definition says, still outside the primary key. -/
def columnOf (c : ColumnDefinition) : Except Fault StoredColumn := do
  let collation ← match c.collation with
    | none => pure .binary
    | some s => match Collation.ofName? s with
      | some x => .ok x
      | none => .error (.noCollation s)
  let fallback ← match c.fallback with
    | none => pure .null
    | some (t, _) => do (← t.resolve none false).eval [] none
  return {
    name := c.name, type := c.type, collation, notNull := c.notNull, fallback
    fallbackText := c.fallback.map (·.2) }

def withColumn (t : Table) (c : ColumnDefinition) : Except Fault Table := do
  if (t.find? c.name).isSome then throw (.duplicateColumn c.name)
  let stored ← columnOf c
  let i := t.columns.length
  let t := { t with columns := t.columns ++ [stored] }
  let t ← match c.key with
    | none => pure t
    | some mark => if t.hasKey then throw (.manyKeys t.name) else t.makeKey [i] mark
  return if c.isUnique then t.makeUnique [i] else t

def placesOf (t : Table) (columns : List String) : Except Fault (List Nat) :=
  columns.mapM fun c => match t.find? c with
    | some i => .ok i
    | none => .error (.noColumn c)

def withRule (t : Table) : TableRule → Except Fault Table
  | .unique columns => do return t.makeUnique (← t.placesOf columns)
  | .primaryKey columns autoincrement => do
    if t.hasKey then throw (.manyKeys t.name)
    t.makeKey (← t.placesOf columns) ⟨false, autoincrement⟩

/-- Do two rows have the same key in a unique index? -/
def hasClash (t : Table) (i : TableIndex) : Bool := t.rows.any fun r => (t.clash? i r).isSome

end Table

namespace Database

def createTable (d : Database) (ifAbsent : Bool) (name : String)
    (columns : List ColumnDefinition) (rules : List TableRule) : Except Fault Database := do
  if (d.find? name).isSome then
    if ifAbsent then return d else throw (.tableExists name)
  if d.hasIndex name then throw (.isIndex name)
  let t ← columns.foldlM Table.withColumn { name, columns := [] }
  let t ← rules.foldlM Table.withRule t
  return { d with tables := d.tables ++ [t] }

/-- A definition is refused at once; what the rows forbid is refused when it is carried out. -/
abbrev Defined := Except Fault (Except Fault Database)

def createIndex (d : Database) (isUnique ifAbsent : Bool) (name table : String)
    (columns : List ColumnName) : Defined := do
  let some t := d.find? table | throw (.noTable ("main." ++ table))
  if (d.find? name).isSome then throw (.isTable name)
  if d.hasIndex name then
    if ifAbsent then return .ok d else throw (.indexExists name)
  let parts ← columns.mapM fun c => match t.find? c.name with
    | some i => .ok (some i)
    | none => if c.maybeText then .ok none else .error (.noColumn c.name)
  let i : TableIndex := ⟨name, parts, isUnique⟩
  if t.hasClash i then
    return .error (match t.qualified i with
      | some cs => .notUnique cs
      | none => .notUniqueIndex name)
  return .ok (d.put { t with indexes := i :: t.indexes })

def addColumn (d : Database) (table : String) (c : ColumnDefinition) : Defined := do
  let some t := d.find? table | throw (.noTable table)
  if (t.find? c.name).isSome then throw (.duplicateColumn c.name)
  let stored ← Table.columnOf c
  if c.key.isSome then throw (.cannotAdd "PRIMARY KEY column")
  if c.isUnique then throw (.cannotAdd "UNIQUE column")
  if c.notNull && stored.fallback.isNull && !t.rows.isEmpty then
    return .error (.cannotAdd "NOT NULL column with default value NULL")
  let rows := t.rows.map fun r => { r with cells := r.cells ++ [stored.fallback] }
  return .ok (d.put { t with columns := t.columns ++ [stored], rows })

def dropTable (d : Database) (ifPresent : Bool) (name : String) : Except Fault Database :=
  match d.find? name with
  | some t => .ok {
      tables := d.tables.filter fun x => x.name != t.name
      greatestIds := d.greatestIds.filter fun e => e.1 != t.name }
  | none => if ifPresent then .ok d else .error (.noTable name)

def dropIndex (d : Database) (ifPresent : Bool) (name : String) : Except Fault Database :=
  if d.hasIndex name then
    let without (t : Table) : Table :=
      { t with indexes := t.indexes.filter fun i => !Text.sameName i.name name }
    .ok { d with tables := d.tables.map without }
  else if ifPresent then .ok d else .error (.noIndex name)

end Database

end RowLedger
