/-!
The arguments of the command line: options, then a command with options of its own. An option takes
its value from the same argument or from the next one, and stands at most once.
-/

namespace RowLedger.CommandLine

inductive Command
  | init
  | demo
  | history (table : Option String)
  | count (table : String)
  deriving DecidableEq, Repr

structure Options where
  database : Option String := none
  config : Option String := none
  trace : Bool := false
  verbose : Bool := false
  deriving DecidableEq, Repr

/-- What the arguments ask for. -/
inductive Request
  | run (options : Options) (command : Command)
  | help
  | version
  deriving DecidableEq, Repr

/-- Why reading ends before the last argument. -/
inductive Stop
  | misuse
  | help
  | version
  deriving DecidableEq, Repr

/-- What one argument is. -/
inductive Argument
  | escape
  | long (name : String) (value : Option String)
  | short (letter : Char) (rest : List Char)
  | plain (s : String)

def Argument.ofText (s : String) : Argument :=
  match s.toList with
  | ['-', '-'] => .escape
  | '-' :: '-' :: cs =>
    let name := cs.takeWhile (· != '=')
    let value := cs.drop (name.length + 1)
    .long (String.ofList name)
      (if name.length < cs.length then some (String.ofList value) else none)
  | '-' :: c :: cs => .short c cs
  | _ => .plain s

/-- The value of an option that is not in its own argument. Nothing that looks like an option is a
value. -/
def nextValue : List String → Except Stop (String × List String)
  | [] => .error .misuse
  | s :: rest =>
    match Argument.ofText s with
    | .plain s => .ok (s, rest)
    | _ => .error .misuse

/-- The value of an option by a letter, in the same argument perhaps after an equals sign. -/
def shortValue (rest : List Char) (more : List String) : Except Stop (String × List String) :=
  match rest with
  | [] => nextValue more
  | '=' :: cs => .ok (String.ofList cs, more)
  | cs => .ok (String.ofList cs, more)

def longValue (value : Option String) (more : List String) : Except Stop (String × List String) :=
  match value with
  | some v => .ok (v, more)
  | none => nextValue more

/-- Sets what is not set yet. -/
def once {α : Type} (present : Bool) (a : α) : Except Stop α :=
  if present then .error .misuse else .ok a

namespace Options

def setDatabase (o : Options) (v : String) : Except Stop Options :=
  once o.database.isSome { o with database := some v }

def setConfig (o : Options) (v : String) : Except Stop Options :=
  once o.config.isSome { o with config := some v }

def setTrace (o : Options) : Except Stop Options := once o.trace { o with trace := true }

def setVerbose (o : Options) : Except Stop Options := once o.verbose { o with verbose := true }

/-- An option by its name, and the arguments after it and its value. -/
def long (o : Options) (name : String) (value : Option String) (more : List String) :
    Except Stop (Options × List String) :=
  match name, value with
  | "database", _ => do
    let (v, more) ← longValue value more
    return (← o.setDatabase v, more)
  | "config", _ => do
    let (v, more) ← longValue value more
    return (← o.setConfig v, more)
  | "trace", none => do return (← o.setTrace, more)
  | "verbose", none => do return (← o.setVerbose, more)
  | "help", none => throw .help
  | "version", none => throw .version
  | _, _ => throw .misuse

/-- Options by their letters, of which only the last has a value. -/
def short (o : Options) (more : List String) : List Char → Except Stop (Options × List String)
  | [] => .ok (o, more)
  | 'd' :: cs => do
    let (v, more) ← shortValue cs more
    return (← o.setDatabase v, more)
  | 'c' :: cs => do
    let (v, more) ← shortValue cs more
    return (← o.setConfig v, more)
  | 'v' :: cs => do short (← o.setVerbose) more cs
  | 'h' :: _ => .error .help
  | 'V' :: _ => .error .version
  | _ => .error .misuse

end Options

/-- Arguments of a command without any of its own. -/
def bare (c : Command) : List String → Except Stop Command
  | [] => .ok c
  | "--help" :: _ => .error .help
  | ["--"] => .ok c
  | s :: _ =>
    match Argument.ofText s with
    | .short 'h' _ => .error .help
    | _ => .error .misuse

def history (table : Option String) : Nat → List String → Except Stop Command
  | 0, _ | _, [] => .ok (.history table)
  | fuel + 1, s :: more => do
    match Argument.ofText s with
    | .long "table" value =>
      let (v, more) ← longValue value more
      history (← once table.isSome (some v)) fuel more
    | .short 't' rest =>
      let (v, more) ← shortValue rest more
      history (← once table.isSome (some v)) fuel more
    | _ => bare (.history table) (s :: more)

/-- After two hyphens nothing is an option. -/
def count (table : Option String) : List String → Except Stop Command
  | [] =>
    match table with
    | some t => .ok (.count t)
    | none => .error .misuse
  | s :: more =>
    match Argument.ofText s, table, more with
    | .plain s, none, more => count (some s) more
    | .escape, none, [t] => .ok (.count t)
    | .escape, some t, [] => .ok (.count t)
    | .long "help" none, _, _ | .short 'h' _, _, _ => .error .help
    | _, _, _ => .error .misuse

def commandNames : List String := ["init", "demo", "history", "count", "help"]

def command (name : String) (more : List String) : Except Stop Command :=
  match name with
  | "init" => bare .init more
  | "demo" => bare .demo more
  | "history" => history none more.length more
  | "count" => count none more
  | "help" =>
    match more with
    | [] => .error .help
    | [s] =>
      .error (if commandNames.contains s || s == "--help" || s == "-h" then .help else .misuse)
    | _ => .error .misuse
  | _ => .error .misuse

def readFrom (o : Options) : Nat → List String → Except Stop Request
  | 0, _ | _, [] => .error .misuse
  | fuel + 1, s :: more => do
    match Argument.ofText s with
    | .escape => throw .misuse
    | .plain name => return .run o (← command name more)
    | .long name value =>
      let (o, more) ← o.long name value more
      readFrom o fuel more
    | .short letter rest =>
      let (o, more) ← o.short more (letter :: rest)
      readFrom o fuel more

/-- Reads all arguments; none if they are misused. -/
def Request.ofArguments (args : List String) : Option Request :=
  match readFrom {} args.length args with
  | .ok r => some r
  | .error .help => some .help
  | .error .version => some .version
  | .error .misuse => none

end RowLedger.CommandLine
