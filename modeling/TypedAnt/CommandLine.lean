import TypedAnt.Settings

/-!
# The command line

The server is started with options that choose how it talks to its client and where its
log goes.  A long option may be shortened as long as it cannot be taken for another
one, and its value may follow it after an equals sign or as the next argument.  Two minus
signs in the place of a value are no value: the option then stands, but is void.
-/

namespace TypedAnt
namespace CommandLine

inductive Flag where
  | help
  | version
  | stdio
  | tcp
  | host
  | logLevel
  | logFile
deriving DecidableEq, Repr

namespace Flag

def all : List Flag :=
  [help, version, stdio, tcp, host, logLevel, logFile]

def spellings : Flag → List String
  | help => ["-h", "--help"]
  | version => ["--version"]
  | stdio => ["--stdio"]
  | tcp => ["--tcp"]
  | host => ["--host"]
  | logLevel => ["--log-level"]
  | logFile => ["--log-file"]

def takesValue : Flag → Bool
  | help | version | stdio => false
  | tcp | host | logLevel | logFile => true

def title (f : Flag) : String :=
  "/".intercalate f.spellings

def table : List (String × Flag) :=
  all.flatMap fun f => f.spellings.map fun spelling => (spelling, f)

end Flag

def levels : List String :=
  ["DEBUG", "INFO", "WARNING", "ERROR", "CRITICAL"]

inductive Error where
  | ambiguous (arg : String) (candidates : List String)
  | expectedValue (flag : Flag)
  | ignoredValue (flag : Flag) (value : String)
  | notAnInt (flag : Flag) (value : String)
  | badChoice (flag : Flag) (value : String)
  | conflict (flag other : Flag)
  | unrecognized (args : List String)
deriving DecidableEq, Repr

def Error.message : Error → String
  | ambiguous arg candidates =>
      "ambiguous option: " ++ arg ++ " could match " ++ ", ".intercalate candidates
  | expectedValue flag => about flag "expected one argument"
  | ignoredValue flag value => about flag ("ignored explicit argument " ++ Text.quote value)
  | notAnInt flag value => about flag ("invalid int value: " ++ Text.quote value)
  | badChoice flag value =>
      about flag ("invalid choice: " ++ Text.quote value ++ " (choose from " ++
        ", ".intercalate (levels.map Text.quote) ++ ")")
  | conflict flag other => about flag ("not allowed with argument " ++ other.title)
  | unrecognized args => "unrecognized arguments: " ++ " ".intercalate args
where
  about (flag : Flag) (words : String) : String :=
    "argument " ++ flag.title ++ ": " ++ words

/-!
# Kinds of arguments

Before any option takes effect, every argument is looked at by itself.
-/

inductive Kind where
  | plain
  | separator
  | unknown
  | option (flag : Flag) (value : Option String)
deriving DecidableEq, Repr

def splitValue (cs : List Char) : List Char × Option String :=
  match cs.dropWhile (· != '=') with
  | [] => (cs, none)
  | _ :: value => (cs.takeWhile (· != '='), some (String.ofList value))

/-- A minus sign and a number are no option; a line end after them does not count. -/
def isNegativeNumber (cs : List Char) : Bool :=
  let isDigit (c : Char) : Bool := (Text.decimalDigit? c).isSome
  let cs := if cs.getLast? = some '\n' then cs.dropLast else cs
  match cs with
  | '-' :: number =>
      match number.dropWhile isDigit with
      | [] => !number.isEmpty
      | '.' :: fraction => !fraction.isEmpty && fraction.all isDigit
      | _ => false
  | _ => false

/-- The options that an argument may stand for in full or in part, with their spellings. -/
def candidates (cs : List Char) : List (String × Flag × Option String) :=
  match cs with
  | '-' :: '-' :: _ =>
      let (start, value) := splitValue cs
      (Flag.table.filter fun entry => start.isPrefixOf entry.1.toList).map fun (spelling, flag) =>
        (spelling, flag, value)
  | _ =>
      (Flag.table.filter fun entry => entry.1.toList == cs.take 2).map fun (spelling, flag) =>
        (spelling, flag, some (String.ofList (cs.drop 2)))

def kindOfDashed (arg : String) : Except Error Kind :=
  let cs := arg.toList
  let (start, value) := splitValue cs
  match Flag.table.lookup (String.ofList start), value with
  | some flag, some value => .ok (.option flag (some value))
  | _, _ =>
      match candidates cs with
      | [] => .ok (if isNegativeNumber cs || cs.contains ' ' then .plain else .unknown)
      | [(_, flag, value)] => .ok (.option flag value)
      | several => .error (.ambiguous arg (several.map Prod.fst))

def kindOf (arg : String) : Except Error Kind :=
  match Flag.table.lookup arg with
  | some flag => .ok (.option flag none)
  | none => if arg.startsWith "-" && arg != "-" then kindOfDashed arg else .ok .plain

def separator : String :=
  "--"

def kinds : List String → Except Error (List (String × Kind))
  | [] => .ok []
  | arg :: rest =>
      if arg = separator then .ok ((arg, .separator) :: rest.map fun a => (a, .plain))
      else do
        let kind ← kindOf arg
        let more ← kinds rest
        return (arg, kind) :: more

/-!
# Arguments taken together
-/

/-- The inner option of `tcp`, and `host` and `logLevel`, are empty where the value is void. -/
structure Arguments where
  stdio : Bool := false
  tcp : Option (Option Int) := none
  host : Option String := some "127.0.0.1"
  logLevel : Option String := some "WARNING"
  logFile : Option String := none
  /-- What no option has taken up. -/
  extra : List String := []
deriving DecidableEq, Repr

inductive Outcome where
  | serve (args : Arguments)
  | showHelp
  | showVersion
  | refuse (error : Error)
deriving DecidableEq, Repr

/-- Chooses the network, which goes with nothing that chooses standard input. -/
def withTcp (args : Arguments) (endpoint : Option Int) : Except Error Arguments :=
  if args.stdio then .error (.conflict .tcp .stdio) else .ok { args with tcp := some endpoint }

def withVoid (args : Arguments) (flag : Flag) : Except Error Arguments :=
  match flag with
  | .tcp => withTcp args none
  | .host => .ok { args with host := none }
  | .logLevel => .ok { args with logLevel := none }
  | .logFile => .ok { args with logFile := none }
  | _ => .ok args

def withValue (args : Arguments) (flag : Flag) (value : String) : Except Error Arguments :=
  if value = separator then withVoid args flag
  else
    match flag with
    | .tcp =>
        match Numeral.readInt value with
        | .error _ => .error (.notAnInt flag value)
        | .ok endpoint => withTcp args (some endpoint)
    | .host => .ok { args with host := some value }
    | .logLevel =>
        let level := Text.upper value
        if levels.contains level then .ok { args with logLevel := some level }
        else .error (.badChoice flag level)
    | .logFile => .ok { args with logFile := some value }
    | _ => .ok args

/-- The short option for help may be repeated in one argument; anything else is too much. -/
def surplus (value : String) : Option String :=
  let rest := value.toList.dropWhile (· == 'h')
  if rest.isEmpty && !value.isEmpty then none else some (String.ofList rest)

def collect (args : Arguments) : List (String × Kind) → Outcome
  | [] => if args.extra.isEmpty then .serve args else .refuse (.unrecognized args.extra)
  | (arg, .plain) :: rest => collect { args with extra := args.extra ++ [arg] } rest
  | (arg, .separator) :: rest => collect { args with extra := args.extra ++ [arg] } rest
  | (arg, .unknown) :: rest => collect { args with extra := args.extra ++ [arg] } rest
  | (arg, .option flag value) :: rest =>
      if flag.takesValue then
        match value, rest with
        | some value, rest =>
            match withValue args flag value with
            | .ok args => collect args rest
            | .error e => .refuse e
        | none, (value, .plain) :: rest =>
            match withValue args flag value with
            | .ok args => collect args rest
            | .error e => .refuse e
        | none, _ => .refuse (.expectedValue flag)
      else
        let excess :=
          match value with
          | none => none
          | some value => if arg.startsWith "--" then some value else surplus value
        match excess with
        | some text => .refuse (.ignoredValue flag text)
        | none =>
            match flag with
            | .help => .showHelp
            | .version => .showVersion
            | _ =>
                if args.tcp.isSome then .refuse (.conflict flag .tcp)
                else collect { args with stdio := true } rest

def read (args : List String) : Outcome :=
  match kinds args with
  | .error e => .refuse e
  | .ok pairs => collect {} pairs

/-!
# What is shown
-/

def versionText : String :=
  "antlsp 0.1.0\n"

def usage : String :=
  "usage: antlsp [-h] [--version] [--stdio | --tcp PORT] [--host HOST]\n" ++
  "              [--log-level LEVEL] [--log-file PATH]\n"

def help : String :=
  usage ++
  "\nLanguage server for TypedAnt: diagnostics and identifier completion.\n" ++
  "\noptions:\n" ++
  "  -h, --help         show this help message and exit\n" ++
  "  --version          show program's version number and exit\n" ++
  "\ntransport:\n" ++
  "  --stdio            serve over stdin/stdout (the default)\n" ++
  "  --tcp PORT         serve on a TCP port instead of stdio\n" ++
  "  --host HOST        interface to bind with --tcp (default: 127.0.0.1)\n" ++
  "\nlogging:\n" ++
  "  --log-level LEVEL  one of DEBUG, INFO, WARNING, ERROR, CRITICAL, case-\n" ++
  "                     insensitive (default: WARNING)\n" ++
  "  --log-file PATH    append logs to PATH instead of stderr\n"

def Error.report (e : Error) : String :=
  usage ++ "antlsp: error: " ++ e.message ++ "\n"

/-!
# Starting to serve
-/

inductive Transport where
  | stdio
  | tcp (host : Option String) (endpoint : Option Int)
deriving DecidableEq, Repr

def voidText : String :=
  "[]"

inductive LogFault where
  | voidLevel
deriving DecidableEq, Repr

def LogFault.message : LogFault → String
  | voidLevel => "Level not an integer or a valid string: " ++ voidText

namespace Arguments

def transport (args : Arguments) : Transport :=
  match args.tcp with
  | none => .stdio
  | some endpoint => .tcp args.host endpoint

def logPath (args : Arguments) : Option String :=
  args.logFile.filter fun path => !path.isEmpty

/-- The notice of where the server listens; one without an endpoint cannot be made out. -/
def notice (args : Arguments) : List Log.Record :=
  match args.transport with
  | .stdio => []
  | .tcp _ none => []
  | .tcp host (some endpoint) =>
      [⟨.info, "antlsp.cli",
        "listening on " ++ host.getD voidText ++ ":" ++ toString endpoint⟩]

/--
What is logged when the server starts to serve.  The level has to be set, and the notice is
made out only where that level lets it pass.
-/
def log (args : Arguments) : Except LogFault (List Log.Record) :=
  match args.logLevel with
  | none => .error .voidLevel
  | some name =>
      match Settings.levelNumbers.get? name with
      | some level => .ok (if level ≤ Log.Level.info.number then args.notice else [])
      | none => .ok []

end Arguments

def logFormat : String :=
  "%(levelname)s %(name)s: %(message)s"

end CommandLine
end TypedAnt
