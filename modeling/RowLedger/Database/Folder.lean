import RowLedger.Config
import RowLedger.Database.Store

/-! A folder with database files and texts, and the opening of what an address names. -/

namespace RowLedger

structure Folder where
  databases : List (String × Database) := []
  texts : List (String × String) := []

namespace Folder

/-- Drops a prefix as often as it stands at the front. -/
def withoutFront (front : List Char) : Nat → List Char → List Char
  | 0, cs => cs
  | fuel + 1, cs =>
    if front.isPrefixOf cs then withoutFront front fuel (cs.drop front.length) else cs

/-- The path in an address, and what follows a question mark. -/
def partsOf (url : String) : String × List Char :=
  let drop (front : String) (cs : List Char) : List Char := withoutFront front.toList url.length cs
  let cs := drop "./" (drop Config.sqliteScheme (drop (Config.sqliteScheme ++ "//") url.toList))
  (String.ofList (cs.takeWhile (· != '?')), (cs.dropWhile (· != '?')).drop 1)

/-- The settings after the path, as keys with values. -/
def parameters (cs : List Char) : List (String × String) :=
  (Text.splitAll (· == '&') cs).filterMap fun p =>
    if p.isEmpty then none
    else some (String.ofList (p.takeWhile (· != '=')),
      String.ofList ((p.dropWhile (· != '=')).drop 1))

/-- The settings that an address may have, with their values; none where all are. -/
def known : List (String × Option (List String)) :=
  [ ("mode", some ["ro", "rw", "rwc", "memory"]), ("cache", some ["private", "shared"]),
    ("immutable", some ["true", "1", "false", "0"]), ("vfs", none) ]

def checkParameter (p : String × String) : Except Fault Unit :=
  match known.lookup p.1 with
  | none => .error (.unknownParameter p.1)
  | some (some values) => if values.contains p.2 then .ok () else .error (.unknownValue p.1 p.2)
  | some none => .ok ()

/-- The name of the file that an address names; none for a database that is not kept. -/
def fileOf (url : String) : Option String :=
  let (name, rest) := partsOf url
  let inMemory := (parameters rest).contains ("mode", "memory")
  if name.isEmpty || name == ":memory:" || inMemory then none else some name

/-- Opens a database; a file that is not there is made, but nothing outside the folder. -/
def openedAt (f : Folder) (url : String) : Except Fault Store := do
  (parameters (partsOf url).2).forM checkParameter
  match fileOf url with
  | none => return {}
  | some name =>
    if name.toList.contains '/' then throw .cannotOpen
    else if ((f.texts.lookup name).getD "") != "" then throw .notDatabase
    else return { engine := { data := (f.databases.lookup name).getD {} } }

def opened (f : Folder) (url : String) : Except StorageError Store :=
  (f.openedAt url).mapError Fault.toStorage

/-- Keeps what a store has committed. -/
def keep (f : Folder) (url : String) (s : Store) : Folder :=
  match fileOf url with
  | none => f
  | some name =>
    { f with databases := (name, s.engine.committed) :: f.databases.filter fun d => d.1 != name }

end Folder

end RowLedger
