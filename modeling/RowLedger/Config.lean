import RowLedger.Dialect
import RowLedger.Json.Read

/-! The settings of a connection, and the texts that other programs take them in. -/

namespace RowLedger

structure Config where
  dialect : Dialect := .sqlite
  /-- A file, or the name of a catalog. -/
  database : String := ":memory:"
  server : Option String := none
  port : Option Nat := none
  user : Option String := none
  password : Option String := none
  trace : Bool := false
  timeExecution : Bool := false
  deriving DecidableEq

namespace Config

def sqlite (database : String) : Config := { database }

def sqlServer (server database : String) : Config :=
  { dialect := .sqlServer, server := some server, database }

/-! Reading settings from JSON; absent ones keep their defaults. -/

def dialectNames : List (String × Dialect) :=
  [("sqlite", .sqlite), ("sqlserver", .sqlServer), ("mssql", .sqlServer)]

/-- A name, or an object whose one key is the name and holds null. -/
def readDialect? : Json → Option Dialect
  | .string (some s) => dialectNames.lookup s
  | .object [(s, .null)] => dialectNames.lookup s
  | _ => none

def readOptional? : Json → Option (Option String) := Json.unlessNull Json.asText?

def readPort? : Json → Option (Option Nat)
  | .null => some none
  | .number (some n) => if 0 ≤ n ∧ n < 65536 then some (some n.toNat) else none
  | _ => none

def readBool? : Json → Option Bool
  | .bool b => some b
  | _ => none

/-- The keys, in the order in which a list gives their values. -/
def keys : List String :=
  ["dialect", "database", "server", "port", "user", "password", "trace", "time_execution"]

/-- Other keys change nothing. -/
def setKey? (c : Config) (key : String) (j : Json) : Option Config :=
  match key with
  | "dialect" => (readDialect? j).map fun dialect => { c with dialect }
  | "database" => j.asText?.map fun database => { c with database }
  | "server" => (readOptional? j).map fun server => { c with server }
  | "port" => (readPort? j).map fun port => { c with port }
  | "user" => (readOptional? j).map fun user => { c with user }
  | "password" => (readOptional? j).map fun password => { c with password }
  | "trace" => (readBool? j).map fun trace => { c with trace }
  | "time_execution" => (readBool? j).map fun timeExecution => { c with timeExecution }
  | _ => some c

def setAll? (entries : List (String × Json)) : Option Config :=
  entries.foldlM (fun c (key, j) => setKey? c key j) {}

/-- An object in which no known key stands twice, or a list of values in the order of the keys. -/
def ofJson? : Json → Option Config
  | .object entries =>
    let known := (entries.map (·.1)).filter keys.contains
    if known.eraseDups.length = known.length then setAll? entries else none
  | .array items => if items.length ≤ keys.length then setAll? (keys.zip items) else none
  | _ => none

def read (s : String) : Except Error Config :=
  match (Json.read? s).bind ofJson? with
  | some c => .ok c
  | none => .error .json

/-! Writing settings. -/

def connectionString (c : Config) : String :=
  let port := match c.port with
    | some p => "," ++ Text.showInt p
    | none => ""
  let login := match c.user with
    | some u => "User ID=" ++ u ++ ";Password=" ++ c.password.getD "" ++ ";"
    | none => "Integrated Security=True;"
  "Data Source=TCP:" ++ c.server.getD "localhost" ++ port ++ ";Initial Catalog=" ++ c.database ++
    ";" ++ login

def sqliteScheme : String := "sqlite:"

def sqliteUrl (c : Config) : String :=
  if sqliteScheme.toList.isPrefixOf c.database.toList then c.database
  else if c.database = "" || c.database = ":memory:" then "sqlite::memory:"
  else sqliteScheme ++ c.database

/-- Why a connection cannot be opened without a driver of the caller's. -/
def noDriver (c : Config) : Error :=
  .config ("no bundled driver for SQL Server (" ++ c.connectionString ++
    "); use Connection::with_driver")

end Config

end RowLedger
