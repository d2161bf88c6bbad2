import RowLedger.Config
import RowLedger.Driver
import RowLedger.Ledger.Entry
import RowLedger.Schema.Registry
import RowLedger.Sql.Mutation

/-!
A connection: the state of the database behind it together with what the connection remembers, and
the actions on both. An action that fails keeps what it did until then.
-/

namespace RowLedger

/-- An effective change of a table. -/
structure Change where
  table : Mapping
  action : Action
  deriving DecidableEq

/-- A subscriber acts on the same state as the driver. -/
structure Subscriber (σ : Type) where
  id : Nat
  onChange : Change → σ → σ

/-- The text of an insert and the columns it binds, in order. -/
structure InsertCommand where
  sql : Sql
  columns : List Nat
  deriving DecidableEq

structure CommandKey where
  type : RecordType
  flags : Flags
  mode : InsertMode
  dialect : Dialect
  deriving DecidableEq

structure Connection (σ : Type) where
  /-- The state that the driver acts on. -/
  world : σ
  /-- How many levels of transactions are open. -/
  depth : Nat := 0
  /-- Is the table of changes known to exist? -/
  ledgerReady : Bool := false
  subscribers : List (Subscriber σ) := []
  nextSubscription : Nat := 0
  registry : Registry := .empty
  commands : Cache CommandKey InsertCommand := {}
  /-- How many identifiers and how many savepoint numbers were drawn. -/
  guidsDrawn : Nat := 0
  savepointsDrawn : Nat := 0

/-- What stays the same while a connection is used. -/
structure Setup (σ : Type) where
  driver : Driver σ
  config : Config
  /-- The identifiers that are drawn, one after the other. -/
  guid : Nat → Guid
  /-- The numbers in the names of savepoints. -/
  savepointNumber : Nat → Nat

abbrev Act (σ α : Type) := ReaderT (Setup σ) (ExceptT Error (StateM (Connection σ))) α

namespace Act

variable {σ α β : Type}

def run (x : Act σ α) (s : Setup σ) (c : Connection σ) : Except Error α × Connection σ :=
  StateT.run (ExceptT.run (ReaderT.run x s)) c

/-- Runs an action and hands its failure on as a value. -/
def attempt (x : Act σ α) : Act σ (Except Error α) := fun s c =>
  let (r, c) := x.run s c
  (.ok r, c)

/-- Whatever becomes of the action, the next ones go on. -/
def quietly (x : Act σ α) : Act σ Unit := do
  let _ ← attempt x

def ofExcept (r : Except Error α) : Act σ α := fun _ c => (r, c)

def fail (e : Error) : Act σ α := ofExcept (.error e)

/-- Calls the driver. -/
def call (f : Driver σ → σ → Reply σ α) : Act σ α := fun s c =>
  let (r, world) := f s.driver c.world
  (r.mapError Error.storage, { c with world })

def state : Act σ (Connection σ) := fun _ c => (.ok c, c)

def update (f : Connection σ → Connection σ) : Act σ Unit := fun _ c => (.ok (), f c)

def dialect : Act σ Dialect := fun s c => (.ok s.config.dialect, c)

def drawGuid : Act σ Guid := fun s c =>
  (.ok (s.guid c.guidsDrawn), { c with guidsDrawn := c.guidsDrawn + 1 })

def drawSavepointNumber : Act σ Nat := fun s c =>
  (.ok (s.savepointNumber c.savepointsDrawn), { c with savepointsDrawn := c.savepointsDrawn + 1 })

/-! Statements. -/

def execText (sql : String) (params : List Param) : Act σ ExecResult :=
  call fun d => d.execute sql params

def queryText (sql : String) (params : List Param) : Act σ ResultSet :=
  call fun d => d.query sql params

def scalarText (sql : String) (params : List Param) : Act σ SqlValue :=
  call fun d => d.scalar sql params

def exec (sql : Sql) (params : List Param) : Act σ ExecResult := do
  execText ((← dialect).render sql) params

def query (sql : Sql) (params : List Param) : Act σ ResultSet := do
  queryText ((← dialect).render sql) params

def scalar (sql : Sql) (params : List Param) : Act σ SqlValue := do
  scalarText ((← dialect).render sql) params

/-- The number of rows that a statement changed. -/
def execCount (sql : Sql) (params : List Param) : Act σ Nat := do
  return (← exec sql params).rowsAffected

def isOpen : Act σ Bool := fun s c => (.ok (s.driver.isOpen c.world), c)

def close : Act σ Unit := call fun d => d.close

/-- The connection as messages show it. -/
def describe : Act σ String := fun s c =>
  (.ok ("Connection \x7b dialect: " ++ Text.quoted s.config.dialect.name ++ ", database: " ++
    Text.quoted s.config.database ++ ", transaction_depth: " ++ Text.showInt c.depth ++
    ", .. \x7d"), c)

/-! Mappings. -/

/-- The mapping of a record type that is in use. -/
def mapping (t : RecordType) : Act σ Mapping := do
  let c ← state
  let (s, registry) ← ofExcept (c.registry.mapping t)
  update fun c => { c with registry }
  return s.mapping

def mappingWithFlags (t : RecordType) (flags : Flags) : Act σ Mapping := do
  let c ← state
  let (s, registry) ← ofExcept (c.registry.withFlags t flags)
  update fun c => { c with registry }
  return s.mapping

def resetMappings : Act σ Unit := update fun c => { c with registry := c.registry.reset }

def resetCommands : Act σ Unit := update fun c => { c with commands := c.commands.clear }

end Act

end RowLedger
