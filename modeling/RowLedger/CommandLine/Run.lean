import RowLedger.CommandLine.Arguments
import RowLedger.Connection.Mutation
import RowLedger.Database.Folder
import RowLedger.Samples

/-! The commands, each an action on a connection that yields lines. -/

namespace RowLedger.CommandLine

/-- Why a command fails. -/
inductive Failure
  | noFile
  | engine (e : Error)
  deriving DecidableEq

def Failure.message : Failure → String
  | noFile => "I/O error: No such file or directory (os error 2)"
  | engine e => e.message

structure Outcome where
  lines : List String := []
  failure : Option Failure := none
  deriving DecidableEq

variable {σ : Type}

def line (e : Ledger.Entry) : String :=
  String.ofList (Text.padLeft 6 ' ' (Text.intDigits e.id)) ++ "  " ++
    String.ofList (Text.padRight 24 ' ' e.table.toList) ++ " " ++ e.row.text ++ "  " ++
    e.action.name

def product (name : String) : Entity := ⟨Samples.product, [.int (Sized.zero .i64), .text name]⟩

def updated (e : Entity) : Entity :=
  { e with values := e.values.map fun
      | .text s => .text (s ++ " Updated")
      | v => v }

/-- Inserts, updates and deletes products. -/
def demo : Act σ (List String) := do
  let _ ← Act.createTable (← Act.mapping Samples.product)
  let (products, inserted) ←
    Act.insertAll [product "Orange Juice", product "Apple Juice"] .insert true
  let _ ← Act.ofExcept inserted
  let (_, changed) ← Act.modifyAll (products.map updated) true
  let _ ← Act.ofExcept changed
  let all ← Act.table Samples.product
  let _ ← Act.deleteQuery (all.filter ((Expr.column "name").startsWith (.constant (.text "Apple"))))
  let remaining ← Act.count (← Act.table Samples.product)
  let entries ← Act.historyFor Samples.product.table
  return [
    "Products: " ++ Text.showInt remaining,
    "History entries: " ++ Text.showInt entries.length]

def printed (entries : List Ledger.Entry) : List String :=
  if entries.isEmpty then ["No changes recorded."] else entries.map line

def rowCount (table : String) : Act σ (List String) := do
  let sql := "select count(*) from " ++ (← Act.dialect).quote table
  let n ← Act.executeScalar ⟨.int .i64, false⟩ sql []
  return [table ++ ": " ++ Text.showInt ((n.int?.map Sized.val).getD 0)]

def perform : Command → Act σ (List String)
  | .init => do
    Act.initLedger
    return []
  | .demo => demo
  | .history none => printed <$> Act.history
  | .history (some table) => printed <$> Act.historyFor table
  | .count table => rowCount table

def defaultDatabase : String := "sqlite:synctrack.db"

/-- The settings file goes before the database. -/
def settings (o : Options) (f : Folder) : Except Failure Config := do
  let c ← match o.config with
    | none => pure (Config.sqlite (o.database.getD defaultDatabase))
    | some file =>
      match f.texts.lookup file with
      | none => throw .noFile
      | some s => (Config.read s).mapError .engine
  return { c with trace := o.trace || o.verbose }

def opened (c : Config) (f : Folder) : Except Failure Store :=
  if c.dialect = .sqlite then (f.opened c.sqliteUrl).mapError (.engine ∘ .storage)
  else .error (.engine c.noDriver)

/-- Opens the database, performs the command and keeps what was committed. -/
def run (o : Options) (command : Command) (guid : Nat → Guid) (savepointNumber : Nat → Nat)
    (f : Folder) : Outcome × Folder :=
  let start : Except Failure (Config × Store) := do
    let c ← settings o f
    return (c, ← opened c f)
  match start with
  | .error e => ({ failure := some e }, f)
  | .ok (config, world) =>
    let setup : Setup Store := { driver := Store.driver, config, guid, savepointNumber }
    let (r, c) := (perform command).run setup { world }
    let f := f.keep config.sqliteUrl c.world
    match r with
    | .ok lines => ({ lines }, f)
    | .error e => ({ failure := some (.engine e) }, f)

end RowLedger.CommandLine
