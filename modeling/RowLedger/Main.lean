import RowLedger.CommandLine.Run

/-!
The command line. Settings are read from the file that the arguments name; a database lives as long
as the command runs.
-/

open RowLedger CommandLine

def usage : String :=
  "usage: rowledger [-d DATABASE] [-c FILE] [-v] [--trace] " ++
    "init|demo|history [-t TABLE]|count TABLE"

/-- Random identifiers of the fourth version. -/
def randomGuid (seed : ByteArray) (n : Nat) : Guid :=
  let bits := seed.foldl (fun x b => 256 * x + b.toNat) 0 + n
  ⟨(BitVec.ofNat 128 bits &&& ~~~(0xF000C000000000000000#128)) ||| 0x40008000000000000000#128⟩

def textsNamed (name : Option String) : IO (List (String × String)) := do
  match name with
  | none => return []
  | some file =>
    try return [(file, ← IO.FS.readFile file)]
    catch _ => return []

def main (args : List String) : IO UInt32 := do
  match Request.ofArguments args with
  | none =>
    IO.eprintln usage
    return 2
  | some .help =>
    IO.println usage
    return 0
  | some .version =>
    IO.println "rowledger 0.1.0"
    return 0
  | some (.run options command) =>
    let seed ← IO.getRandomBytes 16
    let now ← IO.monoNanosNow
    let folder : Folder := { texts := ← textsNamed options.config }
    let (outcome, _) :=
      CommandLine.run options command (randomGuid seed) (now % 1000000 + ·) folder
    outcome.lines.forM IO.println
    match outcome.failure with
    | none => return 0
    | some e =>
      IO.eprintln ("Error: " ++ e.message)
      return 1
